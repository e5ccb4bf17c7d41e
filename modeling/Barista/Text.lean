import Mathlib.Tactic

/-!
# Texts

The operations of the Rust standard library on texts that the models share.
-/

namespace Barista.Text

def isWhitespace (char : Char) : Bool :=
  let code := char.toNat
  (9 ≤ code && code ≤ 13) || code == 0x20 || code == 0x85 || code == 0xA0 ||
    code == 0x1680 || (0x2000 ≤ code && code ≤ 0x200A) || code == 0x2028 ||
    code == 0x2029 || code == 0x202F || code == 0x205F || code == 0x3000

def isAsciiWhitespace (char : Char) : Bool :=
  char == ' ' || char == '\t' || char == '\n' || char == '\x0c' || char == '\r'

def trimChars (chars : List Char) : List Char :=
  ((chars.dropWhile isWhitespace).reverse.dropWhile isWhitespace).reverse

variable (text : String)

def trim : String := String.ofList (trimChars text.toList)

def trimStart : String := String.ofList (text.toList.dropWhile isWhitespace)

def splitOnceChars (separator : Char) : List Char → Option (List Char × List Char)
  | [] => none
  | char :: rest =>
    if char = separator then some ([], rest)
    else (splitOnceChars separator rest).map fun parts => (char :: parts.1, parts.2)

def splitOnce (separator : Char) (text : String) : Option (String × String) :=
  (splitOnceChars separator text.toList).map fun parts => (.ofList parts.1, .ofList parts.2)

theorem splitOnceChars_eq_some {separator : Char} {chars pre post : List Char}
    (split : splitOnceChars separator chars = some (pre, post)) :
    chars = pre ++ separator :: post ∧ separator ∉ pre := by
  induction chars generalizing pre with
  | nil => simp [splitOnceChars] at split
  | cons char rest ih =>
    rw [splitOnceChars] at split
    by_cases same : char = separator
    · simp only [same, ↓reduceIte, Option.some.injEq, Prod.mk.injEq] at split
      simp [← split.1, split.2, same]
    · simp only [same, ↓reduceIte, Option.map_eq_some_iff, Prod.mk.injEq] at split
      rcases split with ⟨parts, inner, rfl, rfl⟩
      rcases ih inner with ⟨whole, apart⟩
      exact ⟨by simp [whole], by simp [apart, Ne.symm same]⟩

theorem splitOnceChars_eq_none {separator : Char} {chars : List Char}
    (split : splitOnceChars separator chars = none) : separator ∉ chars := by
  induction chars with
  | nil => simp
  | cons char rest ih =>
    rw [splitOnceChars] at split
    by_cases same : char = separator
    · simp [same] at split
    · simp only [same, ↓reduceIte, Option.map_eq_none_iff] at split
      simp [ih split, Ne.symm same]

def endLine (line : List Char) : List Char :=
  match line with
  | '\r' :: rest => rest.reverse
  | _ => line.reverse

def linesFrom (line : List Char) : List Char → List (List Char)
  | [] => if line.isEmpty then [] else [line.reverse]
  | char :: rest =>
    if char = '\n' then endLine line :: linesFrom [] rest else linesFrom (char :: line) rest

def lines : List String := (linesFrom [] text.toList).map .ofList

def asBytes : List UInt8 := text.toList.flatMap String.utf8EncodeChar

def eqIgnoreAsciiCase (left right : String) : Bool :=
  left.toList.map Char.toLower == right.toList.map Char.toLower

def stripPrefix (lead text : String) : Option String :=
  if lead.toList.isPrefixOf text.toList then
    some (String.ofList (text.toList.drop lead.toList.length))
  else none

def startsWith (text lead : String) : Bool := lead.toList.isPrefixOf text.toList

theorem startsWith_append (lead rest : String) : startsWith (lead ++ rest) lead = true := by
  rw [startsWith, String.toList_append, List.isPrefixOf_iff_prefix]
  exact List.prefix_append _ _

def endsWith (text suffix : String) : Bool := suffix.toList.isSuffixOf text.toList

def replaceChars (pattern replacement : List Char) : ℕ → List Char → List Char
  | _, [] => []
  | skip + 1, _ :: rest => replaceChars pattern replacement skip rest
  | 0, char :: rest =>
    if pattern.isPrefixOf (char :: rest) then
      replacement ++ replaceChars pattern replacement (pattern.length - 1) rest
    else char :: replaceChars pattern replacement 0 rest

def replace (text pattern replacement : String) : String :=
  .ofList (replaceChars pattern.toList replacement.toList 0 text.toList)

end Barista.Text
