import Mathlib.Tactic

/-!
# Version items

The parser and the comparison of Maven's generic versions.
-/

namespace Barista

namespace Version

abbrev Text := List Char

def qualifiers : List Text :=
  ["alpha".toList, "beta".toList, "milestone".toList, "rc".toList, "snapshot".toList, [],
    "sp".toList]

def releaseQualifiers : List Text := ["ga".toList, "final".toList, "release".toList]

def releaseIndex : Text := ['5']

def resolveAlias (qualifier : Text) : Text :=
  if qualifier = "cr".toList then "rc".toList else qualifier

def comparableQualifier (qualifier : Text) : Text :=
  if qualifier ∈ releaseQualifiers then releaseIndex
  else
    match qualifiers.findIdx? (· == qualifier) with
    | some index => Nat.toDigits 10 index
    | none => Nat.toDigits 10 qualifiers.length ++ '-' :: qualifier

inductive Item where
  /-- Digits without leading zeros, or a single zero. -/
  | integer (digits : Text)
  /-- A qualifier, already lowercased and with its alias resolved. -/
  | str (name : Text)
  /-- A qualifier fused with the number behind it. -/
  | combination (stringPart digitPart : Item)
  | list (items : List Item)

def stripLeadingZeros (buf : Text) : Text :=
  if buf = [] then ['0']
  else
    let trimmed := buf.dropWhile (· == '0')
    if trimmed = [] then ['0'] else trimmed

namespace Item

def isNull : Item → Bool
  | integer digits => digits == ['0']
  | str name => name.isEmpty
  | combination _ _ => false
  | list items => items.isEmpty

def ofDigits (buf : Text) : Item := integer (stripLeadingZeros buf)

def expand (value : Text) : Text :=
  if value = ['a'] then "alpha".toList
  else if value = ['b'] then "beta".toList
  else if value = ['m'] then "milestone".toList
  else value

def string (value : Text) (followedByDigit : Bool) : Item :=
  str (resolveAlias (if followedByDigit && value.length == 1 then expand value else value))

end Item

def parsePlain (isDigit : Bool) (buf : Text) : Item :=
  if isDigit then Item.ofDigits buf else Item.string buf false

def Item.ofCombination (value : Text) : Item :=
  let cleaned := value.filter (· != '-')
  let split := (cleaned.findIdx? Char.isDigit).getD cleaned.length
  .combination (Item.string (cleaned.take split) true) (parsePlain true (cleaned.drop split))

def parseItem (isCombination isDigit : Bool) (buf : Text) : Item :=
  if isCombination then Item.ofCombination (buf.filter (· != '-')) else parsePlain isDigit buf

def cmpNumeric (left right : Text) : Ordering :=
  (compare left.length right.length).then (compare left right)

mutual

def Item.comparePadding : Item → Ordering
  | .integer digits => if digits = ['0'] then .eq else .gt
  | .str name => compare (comparableQualifier name) releaseIndex
  | .combination stringPart _ => stringPart.comparePadding
  | .list items => comparePaddingAll items

def comparePaddingAll : List Item → Ordering
  | [] => .eq
  | item :: items => item.comparePadding.then (comparePaddingAll items)

end

def compareQualifier (name : Text) : Item → Ordering
  | .integer _ => .lt
  | .str other => compare (comparableQualifier name) (comparableQualifier other)
  | .combination otherString _ =>
    -- the bare qualifier comes before its numbered form
    (compareQualifier name otherString).then .lt
  | .list _ => .lt

mutual

def Item.compareItem : Item → Item → Ordering
  | .integer left, .integer right => cmpNumeric left right
  | .integer _, .str _ => .gt
  | .integer _, .combination _ _ => .gt
  | .integer _, .list _ => .gt
  | .str name, other => compareQualifier name other
  | .combination _ _, .integer _ => .lt
  | .combination stringPart _, .str other =>
    (stringPart.compareItem (.str other)).then .gt
  | .combination _ _, .list _ => .lt
  | .combination stringPart digitPart, .combination otherString otherDigit =>
    (stringPart.compareItem otherString).then (digitPart.compareItem otherDigit)
  | .list _, .integer _ => .lt
  | .list _, .str _ => .gt
  | .list _, .combination _ _ => .gt
  | .list items, .list others => compareLists items others

def compareLists : List Item → List Item → Ordering
  | [], rights => (comparePaddingAll rights).swap
  | left :: lefts, [] => (left.comparePadding).then (compareLists lefts [])
  | left :: lefts, right :: rights => (left.compareItem right).then (compareLists lefts rights)

end

def absorbsNull : List Item → Bool
  | [] => true
  | .str _ :: _ => true
  | .list (.combination _ _ :: _) :: _ => true
  | .list (.str _ :: _) :: _ => true
  | _ => false

def dropNulls : List Item → List Item
  | [] => []
  | item :: items =>
    let rest := dropNulls items
    if item.isNull && absorbsNull rest then rest else item :: rest

mutual

def Item.normalizeInner : Item → Item
  | .list items => .list (dropNulls (normalizeEach items))
  | item => item

def normalizeEach : List Item → List Item
  | [] => []
  | item :: items => item.normalizeInner :: normalizeEach items

end

def normalize (items : List Item) : List Item := dropNulls (normalizeEach items)

structure Parser where
  top : List Item := []
  outer : List (List Item) := []
  buf : Text := []
  isDigit : Bool := false
  isCombination : Bool := false

namespace Parser

def pushItem (parser : Parser) (item : Item) : Parser :=
  { parser with top := parser.top ++ [item] }

def pushList (parser : Parser) : Parser :=
  { parser with top := [], outer := parser.top :: parser.outer }

def pushListUnlessEmpty (parser : Parser) : Parser :=
  if parser.top.isEmpty then parser else parser.pushList

def flush (parser : Parser) (isDigit : Bool) : Parser :=
  { parser.pushItem (parseItem parser.isCombination isDigit parser.buf) with
    buf := [], isCombination := false }

def flushSeparated (parser : Parser) : Parser :=
  if parser.buf.isEmpty then
    { parser.pushItem (.integer ['0']) with isCombination := false }
  else parser.flush parser.isDigit

def step (parser : Parser) (char : Char) (next : Option Char) : Parser :=
  if char = '.' then parser.flushSeparated
  else if char = '-' then
    if !parser.buf.isEmpty && !parser.isDigit && next.any Char.isDigit then
      -- a hyphen between a letter and a digit does not end the piece
      { parser with isCombination := true, buf := parser.buf ++ ['-'] }
    else parser.flushSeparated.pushListUnlessEmpty
  else if char.isDigit then
    let parser :=
      if !parser.isDigit && !parser.buf.isEmpty then
        { parser.pushListUnlessEmpty with isCombination := true }
      else parser
    { parser with isDigit := true, buf := parser.buf ++ [char] }
  else
    let parser :=
      if parser.isDigit && !parser.buf.isEmpty then (parser.flush true).pushList else parser
    { parser with isDigit := false, buf := parser.buf ++ [char] }

def run (parser : Parser) : List Char → Parser
  | [] => parser
  | char :: rest => run (parser.step char rest.head?) rest

def finish (parser : Parser) : Parser :=
  if parser.buf.isEmpty then parser
  else
    (if !parser.isDigit then parser.pushListUnlessEmpty else parser).flush parser.isDigit

def collapse (top : List Item) : List (List Item) → List Item
  | [] => normalize top
  | parent :: outer => collapse (parent ++ [.list (normalize top)]) outer

def parse (version : List Char) : List Item :=
  let parser := (run {} version).finish
  collapse parser.top parser.outer

end Parser

mutual

def itemDisplay : Item → Text
  | .integer digits => digits
  | .str name => name
  | .combination stringPart digitPart => itemDisplay stringPart ++ itemDisplay digitPart
  | .list items => listDisplay items

def listDisplay : List Item → Text
  | [] => []
  | item :: items => itemDisplay item ++ tailDisplay items

def tailDisplay : List Item → Text
  | [] => []
  | item :: items =>
    (match item with
      | .list _ => '-'
      | _ => '.') :: itemDisplay item ++ tailDisplay items

end

end Version

structure Version where
  original : String
  canonical : String
  items : List Version.Item

namespace Version

def asciiLowercase (text : String) : String := text.map Char.toLower

variable (lower : String → String)

def parse (text : String) : Version :=
  let items := Parser.parse (lower text).toList
  { original := text, canonical := String.ofList (listDisplay items), items }

def parseStrict (text : String) : Option Version :=
  if text = "" then none else some (parse lower text)

def isSnapshot (version : Version) : Bool :=
  "-snapshot".toList.isSuffixOf (version.original.toList.map Char.toLower)

def cmp (left right : Version) : Ordering := compareLists left.items right.items

instance : BEq Version where
  beq left right := left.canonical == right.canonical

end Version

end Barista
