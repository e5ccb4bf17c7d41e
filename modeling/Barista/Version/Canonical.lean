import Barista.PaddedLex
import Barista.Version.Item

/-!
# Canonical versions

A version is flattened to tokens, which are compared with padding. The comparison is antisymmetric
but not transitive, and canonical texts can differ where it says that versions are equal.
-/

namespace Barista.Version

section Comparison

section Normal

section Flattened

inductive Token where
  | integer (digits : Text)
  | qualifier (name : Text)
  | numbered (name digits : Text)
  | nested
  deriving DecidableEq

def build : List Token → List Item
  | [] => []
  | .integer digits :: rest => .integer digits :: build rest
  | .qualifier name :: rest => .str name :: build rest
  | .numbered name digits :: rest => .combination (.str name) (.integer digits) :: build rest
  | .nested :: rest => [.list (build rest)]

mutual

def Item.flatten : Item → List Token
  | .integer digits => [.integer digits]
  | .str name => [.qualifier name]
  | .combination stringPart digitPart =>
    [.numbered (itemDisplay stringPart) (itemDisplay digitPart)]
  | .list items => .nested :: flatten items

def flatten : List Item → List Token
  | [] => []
  | item :: items => item.flatten ++ flatten items

end

def tokens (version : Version) : List Token := flatten version.items

variable (tokens : List Token)

@[simp]
theorem flatten_build : flatten (build tokens) = tokens := by
  induction tokens with
  | nil => rfl
  | cons token rest ih =>
    cases token <;> simp [build, flatten, Item.flatten, itemDisplay, ih]

theorem build_append {front : List Token} (flat : .nested ∉ front) (back : List Token) :
    build (front ++ back) = build front ++ build back := by
  induction front with
  | nil => rfl
  | cons token rest ih =>
    rw [List.mem_cons, not_or] at flat
    cases token with
    | nested => exact absurd rfl flat.1
    | _ => simp [build, ih flat.2]

theorem build_eq_nil {tokens : List Token} : build tokens = [] ↔ tokens = [] := by
  rcases tokens with _ | ⟨_ | _ | _ | _, rest⟩ <;> simp [build]

namespace Token

def rank : Token → ℕ
  | integer _ => 2
  | qualifier _ => 0
  | numbered _ _ => 0
  | nested => 1

def comparableName : Token → Text
  | qualifier name => comparableQualifier name
  | numbered name _ => comparableQualifier name
  | _ => []

def fused : Token → ℕ
  | numbered _ _ => 1
  | _ => 0

def digits : Token → Text
  | integer digits => digits
  | numbered _ digits => digits
  | _ => []

def cmp : Token → Token → Ordering :=
  compareLex (compareOn rank) (compareLex (compareOn comparableName) (compareLex (compareOn fused)
      (compareLex (compareOn fun token => token.digits.length) (compareOn digits))))

def pad : Token → Ordering
  | integer digits => if digits = ['0'] then .eq else .gt
  | qualifier name => compare (comparableQualifier name) releaseIndex
  | numbered name _ => compare (comparableQualifier name) releaseIndex
  | nested => .eq

theorem cmp_eq_then (left right : Token) : left.cmp right = (compare left.rank right.rank).then
        ((compare left.comparableName right.comparableName).then
          ((compare left.fused right.fused).then (cmpNumeric left.digits right.digits))) := rfl

theorem cmp_eq_eq {left right : Token} : left.cmp right = .eq ↔
      left.rank = right.rank ∧ left.comparableName = right.comparableName ∧
        left.fused = right.fused ∧ left.digits = right.digits := by
  simp only [cmp, compareLex_eq_eq, compareOn, Std.LawfulEqOrd.compare_eq_iff_eq]
  constructor
  · rintro ⟨rank, name, fused, -, digits⟩
    exact ⟨rank, name, fused, digits⟩
  · rintro ⟨rank, name, fused, digits⟩
    exact ⟨rank, name, fused, congrArg List.length digits, digits⟩

theorem pad_congr {left right : Token} (same : left.cmp right = .eq) : left.pad = right.pad := by
  rw [cmp_eq_eq] at same
  rcases same with ⟨rank, name, fused, digits⟩
  cases left <;> cases right <;>
    simp_all [Token.rank, comparableName, Token.fused, Token.digits, pad]

end Token

def tokenOrder : PaddedOrder Token where
  cmp := Token.cmp
  pad := Token.pad
  trans := inferInstanceAs (Std.TransCmp (compareLex _ _))
  pad_congr := Token.pad_congr

theorem comparePaddingAll_build : comparePaddingAll (build tokens) = tokenOrder.padAll tokens := by
  induction tokens with
  | nil => rfl
  | cons token rest ih =>
    cases token <;>
      simp [build, comparePaddingAll, Item.comparePadding, PaddedOrder.padAll, ih] <;> rfl

theorem compareLists_nil_right (items : List Item) :
    compareLists items [] = comparePaddingAll items := by
  induction items with
  | nil => rfl
  | cons item items ih => rw [compareLists, comparePaddingAll, ih]

theorem compareLists_build (lefts rights : List Token) :
    compareLists (build lefts) (build rights) = tokenOrder.compare lefts rights := by
  induction lefts generalizing rights with
  | nil =>
    rw [PaddedOrder.compare_nil_left, ← comparePaddingAll_build]
    rfl
  | cons left lefts ih =>
    rcases rights with _ | ⟨right, rights⟩
    · rw [PaddedOrder.compare_nil_right, ← comparePaddingAll_build]
      exact compareLists_nil_right _
    · have cmpDef : tokenOrder.cmp left right = left.cmp right := rfl
      rw [PaddedOrder.compare_cons, ← ih rights, cmpDef, Token.cmp_eq_then]
      have below : ∀ {low high : ℕ}, low < high → compare low high = .lt := Nat.compare_eq_lt.mpr
      have above : ∀ {low high : ℕ}, low < high → compare high low = .gt := Nat.compare_eq_gt.mpr
      cases left <;> cases right <;>
        simp [build, compareLists, Item.compareItem, compareQualifier, Token.rank,
          Token.comparableName, Token.fused, Token.digits, comparePaddingAll,
          cmpNumeric, below, above, Ordering.then_assoc]

def Token.isNull : Token → Bool
  | .integer digits => digits == ['0']
  | .qualifier name => name.isEmpty
  | .numbered _ _ => false
  | .nested => false

def absorbs : List Token → Bool
  | [] => true
  | .qualifier _ :: _ => true
  | .nested :: .numbered _ _ :: _ => true
  | .nested :: .qualifier _ :: _ => true
  | _ => false

def trim : List Token → List Token
  | [] => []
  | .nested :: rest => if trim rest = [] then [] else .nested :: trim rest
  | token :: rest => if token.isNull && absorbs (trim rest) then trim rest else token :: trim rest

theorem absorbsNull_build : absorbsNull (build tokens) = absorbs tokens := by
  rcases tokens with _ | ⟨_ | _ | _ | _, rest⟩
  case cons.nested => rcases rest with _ | ⟨_ | _ | _ | _, rest⟩ <;> rfl
  all_goals rfl

theorem normalize_build : normalize (build tokens) = build (trim tokens) := by
  induction tokens with
  | nil => rfl
  | cons token rest ih =>
    rw [normalize] at ih
    cases token with
    | nested =>
      by_cases empty : trim rest = []
      · simp [normalize, build, normalizeEach, Item.normalizeInner, ih, dropNulls, trim,
          Item.isNull, absorbsNull, empty]
      · simp [normalize, build, normalizeEach, Item.normalizeInner, ih, dropNulls, trim,
          Item.isNull, absorbsNull, empty, build_eq_nil]
    | _ =>
      simp only [normalize, build, normalizeEach, Item.normalizeInner, dropNulls, ih, trim,
        absorbsNull_build]
      split <;> split <;> simp_all [Item.isNull, Token.isNull, build]

theorem trim_cons (token : Token) (rest : List Token) : trim (token :: rest) = trim rest ∨
      trim (token :: rest) = token :: trim rest ∧
        (trim rest = [] → token ≠ .nested ∧ token.isNull = false) := by
  cases token with
  | nested =>
    rw [trim]
    by_cases empty : trim rest = []
    · left
      rw [if_pos empty, empty]
    · right
      rw [if_neg empty]
      exact ⟨rfl, fun absurdity => absurd absurdity empty⟩
  | _ =>
    rw [trim]
    · split
      case isTrue => exact Or.inl rfl
      case isFalse kept =>
        refine Or.inr ⟨rfl, ?_⟩
        intro empty
        rw [empty] at kept
        simpa [absorbs] using kept
    · simp

theorem trim_sublist : (trim tokens).Sublist tokens := by
  induction tokens with
  | nil => exact List.Sublist.refl []
  | cons token rest ih =>
    rcases trim_cons token rest with dropped | ⟨kept, -⟩
    · rw [dropped]
      exact ih.cons _
    · rw [kept]
      exact ih.cons_cons _

def Trimmed : Prop :=
  ∀ last, tokens.getLast? = some last → last ≠ .nested ∧ last.isNull = false

theorem trimmed_trim : Trimmed (trim tokens) := by
  intro last isLast
  induction tokens with
  | nil => simp [trim] at isLast
  | cons token rest ih =>
    rcases trim_cons token rest with dropped | ⟨kept, atEnd⟩
    · rw [dropped] at isLast
      exact ih isLast
    · rw [kept] at isLast
      by_cases empty : trim rest = []
      · rw [empty, List.getLast?_singleton, Option.some.injEq] at isLast
        rw [← isLast]
        exact atEnd empty
      · rw [List.getLast?_cons_of_ne_nil empty] at isLast
        exact ih isLast

end Flattened

open List

def IsDigits (text : Text) : Prop := text ≠ [] ∧ ∀ char ∈ text, char.isDigit

def IsLetter (char : Char) : Prop := char.isDigit = false ∧ char ≠ '.' ∧ char ≠ '-'

def IsName (text : Text) : Prop := text ≠ [] ∧ ∀ char ∈ text, IsLetter char

theorem IsDigits.append {front back : Text} (first : IsDigits front) (second : IsDigits back) :
    IsDigits (front ++ back) := by
  refine ⟨by simp [first.1], ?_⟩
  intro char mem
  rcases mem_append.mp mem with inFront | inBack
  · exact first.2 char inFront
  · exact second.2 char inBack

theorem IsName.append {front back : Text} (first : IsName front) (second : IsName back) :
    IsName (front ++ back) := by
  refine ⟨by simp [first.1], ?_⟩
  intro char mem
  rcases mem_append.mp mem with inFront | inBack
  · exact first.2 char inFront
  · exact second.2 char inBack

def Token.Valid : Token → Prop
  | .integer digits => IsDigits digits
  | .qualifier name => IsName name
  | .numbered name digits => IsName name ∧ IsDigits digits
  | .nested => True

def Flat (items : List Item) : Prop :=
  ∃ tokens, items = build tokens ∧ .nested ∉ tokens ∧ ∀ token ∈ tokens, token.Valid

theorem flat_nil : Flat [] := ⟨[], rfl, by simp, by simp⟩

theorem Flat.append {front back : List Item} (flatFront : Flat front) (flatBack : Flat back) :
    Flat (front ++ back) := by
  rcases flatFront with ⟨fronts, rfl, frontFlat, frontValid⟩
  rcases flatBack with ⟨backs, rfl, backFlat, backValid⟩
  refine ⟨fronts ++ backs, (build_append frontFlat backs).symm, ?_, ?_⟩
  · simp [frontFlat, backFlat]
  · intro token mem
    rcases mem_append.mp mem with inFront | inBack
    · exact frontValid token inFront
    · exact backValid token inBack

variable {text name digits : Text}

theorem isDigits_stripLeadingZeros (digits : IsDigits text) :
    IsDigits (stripLeadingZeros text) := by
  have zero : IsDigits ['0'] := by simp [IsDigits]
  rw [stripLeadingZeros, if_neg digits.1]
  dsimp only
  split
  · exact zero
  case isFalse ne =>
    refine ⟨ne, ?_⟩
    intro char mem
    exact digits.2 char ((dropWhile_sublist _).subset mem)

theorem isName_resolveAlias (name : IsName text) : IsName (resolveAlias text) := by
  rw [resolveAlias]
  split
  · simp [IsName, IsLetter]
  · exact name

theorem isName_expand (name : IsName text) : IsName (Item.expand text) := by
  unfold Item.expand
  split_ifs
  · simp [IsName, IsLetter]
  · simp [IsName, IsLetter]
  · simp [IsName, IsLetter]
  · exact name

theorem string_eq_str (name : IsName text) (followedByDigit : Bool) :
    ∃ name', IsName name' ∧ Item.string text followedByDigit = .str name' := by
  refine ⟨_, isName_resolveAlias ?_, rfl⟩
  split
  · exact isName_expand name
  · exact name

theorem flat_ofDigits (digits : IsDigits text) : Flat [Item.ofDigits text] :=
  ⟨[.integer (stripLeadingZeros text)], rfl, by simp,
    by simpa [Token.Valid] using isDigits_stripLeadingZeros digits⟩

theorem flat_string (name : IsName text) : Flat [Item.string text false] := by
  rcases string_eq_str name false with ⟨name', valid, built⟩
  exact ⟨[.qualifier name'], by rw [built]; rfl, by simp, by simpa [Token.Valid] using valid⟩

theorem filter_isName (isName : IsName name) : name.filter (· != '-') = name := by
  rw [filter_eq_self]
  intro char mem
  simpa using (isName.2 char mem).2.2

theorem filter_isDigits (isDigits : IsDigits digits) : digits.filter (· != '-') = digits := by
  rw [filter_eq_self]
  intro char mem
  rw [bne_iff_ne]
  rintro rfl
  exact absurd (isDigits.2 '-' mem) (by decide)

theorem findIdx?_isDigit (isName : IsName name) (isDigits : IsDigits digits) :
    (name ++ digits).findIdx? Char.isDigit = some name.length := by
  have none : name.findIdx? Char.isDigit = none := by
    rw [findIdx?_eq_none_iff]
    intro char mem
    exact (isName.2 char mem).1
  rcases digits with _ | ⟨digit, digits⟩
  · exact absurd rfl isDigits.1
  · have first : digit.isDigit := isDigits.2 digit mem_cons_self
    rw [findIdx?_append, none, findIdx?_cons, if_pos first]
    simp

theorem flat_ofCombination (isName : IsName name) (isDigits : IsDigits digits) :
    Flat [Item.ofCombination (name ++ digits)] := by
  have noHyphen : (name ++ digits).filter (· != '-') = name ++ digits := by
    rw [filter_append, filter_isName isName, filter_isDigits isDigits]
  rcases string_eq_str isName true with ⟨name', valid, built⟩
  refine ⟨[.numbered name' (stripLeadingZeros digits)], ?_, by simp, ?_⟩
  · simp only [Item.ofCombination, noHyphen, findIdx?_isDigit isName isDigits,
      Option.getD_some, take_left, drop_left, built, parsePlain, if_true,
      Item.ofDigits, build]
  · simpa [Token.Valid] using ⟨valid, isDigits_stripLeadingZeros isDigits⟩

inductive Piece (next : Option Char) : Bool → Bool → Text → Prop
  | empty {isDigit : Bool} : Piece next isDigit false []
  | digits {buf : Text} : IsDigits buf → Piece next true false buf
  | name {buf : Text} : IsName buf → Piece next false false buf
  /-- A hyphen is kept in a piece only in front of a digit. -/
  | hyphen {name : Text} : IsName name → next.any Char.isDigit →
      Piece next false true (name ++ ['-'])
  | numbered {buf name digits : Text} : IsName name → IsDigits digits →
      buf.filter (· != '-') = name ++ digits → Piece next true true buf

namespace Piece

variable {next : Option Char} {isDigit isCombination : Bool} {buf : Text} {char : Char}

theorem flat (piece : Piece next isDigit isCombination buf) (ne : buf ≠ [])
    (boundary : isDigit = true ∨ next.any Char.isDigit = false) :
    Flat [parseItem isCombination isDigit buf] := by
  cases piece with
  | empty => exact absurd rfl ne
  | digits isDigits => exact flat_ofDigits isDigits
  | name isName => exact flat_string isName
  | hyphen isName digitNext =>
    rw [digitNext] at boundary
    simp at boundary
  | numbered isName isDigits cleaned =>
    rw [parseItem, if_pos rfl, cleaned]
    exact flat_ofCombination isName isDigits

theorem digit (piece : Piece (some char) isDigit isCombination buf) (digit : char.isDigit)
    (next : Option Char) :
    Piece next true (isCombination || (!isDigit && !buf.isEmpty)) (buf ++ [char]) := by
  have one : IsDigits [char] := by simpa [IsDigits] using digit
  cases piece with
  | empty => simpa using Piece.digits one
  | digits isDigits => exact Piece.digits (isDigits.append one)
  | name isName =>
    have ne : buf.isEmpty = false := by simpa using isName.1
    rw [ne]
    refine Piece.numbered isName one ?_
    rw [filter_append, filter_isName isName, filter_isDigits one]
  | hyphen isName _ =>
    refine Piece.numbered isName one ?_
    rw [filter_append, filter_append, filter_isName isName, filter_isDigits one]
    simp
  | numbered isName isDigits cleaned =>
    refine Piece.numbered isName (isDigits.append one) ?_
    rw [filter_append, cleaned, filter_isDigits one, append_assoc]

theorem letter (piece : Piece (some char) isDigit isCombination buf) (letter : IsLetter char)
    (flushed : isDigit = true → buf = []) (next : Option Char) :
    Piece next false isCombination (buf ++ [char]) := by
  have one : IsName [char] := by simpa [IsName] using letter
  cases piece with
  | empty => exact Piece.name one
  | digits isDigits => exact absurd (flushed rfl) isDigits.1
  | name isName => exact Piece.name (isName.append one)
  | hyphen _ digitNext =>
    rw [Option.any_some, letter.1] at digitNext
    simp at digitNext
  | numbered isName _ cleaned =>
    rw [flushed rfl] at cleaned
    simp [isName.1] at cleaned

theorem beforeDigit (piece : Piece (some '-') false isCombination buf) (ne : buf ≠ [])
    {next : Option Char} (digitNext : next.any Char.isDigit) :
    Piece next false true (buf ++ ['-']) := by
  cases piece with
  | empty => exact absurd rfl ne
  | name isName => exact Piece.hyphen isName digitNext
  | hyphen _ absurdity => exact absurd absurdity (by decide)

end Piece

namespace Parser

structure Good (next : Option Char) (parser : Parser) : Prop where
  piece : Piece next parser.isDigit parser.isCombination parser.buf
  top : Flat parser.top
  outer : ∀ items ∈ parser.outer, Flat items

variable {parser : Parser} {next : Option Char}

theorem good_initial : Good next {} where
  piece := Piece.empty
  top := flat_nil
  outer := by simp

section Builders

variable (good : Good next parser)

include good

theorem Good.pushList : Good next parser.pushList where
  piece := good.piece
  top := flat_nil
  outer := by
    intro items mem
    rcases mem_cons.mp mem with rfl | old
    · exact good.top
    · exact good.outer items old

theorem Good.pushListUnlessEmpty : Good next parser.pushListUnlessEmpty := by
  rw [Parser.pushListUnlessEmpty]
  split
  · exact good
  · exact good.pushList

theorem Good.flush (ne : parser.buf ≠ [])
    (boundary : parser.isDigit = true ∨ next.any Char.isDigit = false)
    (next' : Option Char) : Good next' (parser.flush parser.isDigit) where
  piece := Piece.empty
  top := good.top.append (good.piece.flat ne boundary)
  outer := good.outer

theorem Good.flushSeparated (boundary : next.any Char.isDigit = false) (next' : Option Char) :
    Good next' parser.flushSeparated := by
  rw [Parser.flushSeparated]
  split
  case isTrue empty =>
    rw [List.isEmpty_iff] at empty
    have zero : Flat [Item.integer ['0']] :=
      ⟨[.integer ['0']], rfl, by simp, by simp [Token.Valid, IsDigits]⟩
    refine ⟨?_, good.top.append zero, good.outer⟩
    rw [show ({parser.pushItem (.integer ['0']) with isCombination := false} : Parser).buf = []
      from empty]
    exact Piece.empty
  case isFalse ne =>
    rw [List.isEmpty_iff] at ne
    exact good.flush ne (Or.inr boundary) next'

end Builders

theorem pushListUnlessEmpty_buf : parser.pushListUnlessEmpty.buf = parser.buf := by
  rw [Parser.pushListUnlessEmpty]
  split <;> rfl

theorem pushListUnlessEmpty_isDigit : parser.pushListUnlessEmpty.isDigit = parser.isDigit := by
  rw [Parser.pushListUnlessEmpty]
  split <;> rfl

variable {char : Char}

theorem Good.step_hyphen (good : Good (some '-') parser) (next : Option Char) :
    Good next (parser.step '-' next) := by
  rw [Parser.step, if_neg (by decide), if_pos rfl]
  split
  case isTrue kept =>
    simp only [Bool.and_eq_true, Bool.not_eq_true', isEmpty_eq_false_iff] at kept
    rcases kept with ⟨⟨ne, noDigit⟩, digitNext⟩
    refine ⟨?_, good.top, good.outer⟩
    have piece := good.piece
    rw [noDigit] at piece ⊢
    exact piece.beforeDigit ne digitNext
  case isFalse => exact (good.flushSeparated (by decide) next).pushListUnlessEmpty

theorem Good.step_digit (good : Good (some char) parser) (digit : char.isDigit)
    (next : Option Char) : Good next (parser.step char next) := by
  have noDot : char ≠ '.' := by
    rintro rfl
    exact absurd digit (by decide)
  have noHyphen : char ≠ '-' := by
    rintro rfl
    exact absurd digit (by decide)
  have piece := good.piece.digit digit next
  rw [Parser.step, if_neg noDot, if_neg noHyphen, if_pos digit]
  by_cases fuses : (!parser.isDigit && !parser.buf.isEmpty) = true
  · rw [fuses, Bool.or_true] at piece
    have opened := good.pushListUnlessEmpty
    simp only [fuses, if_true]
    refine ⟨?_, opened.top, opened.outer⟩
    simpa only [pushListUnlessEmpty_buf] using piece
  · rw [Bool.eq_false_of_not_eq_true fuses, Bool.or_false] at piece
    simp only [fuses]
    exact ⟨piece, good.top, good.outer⟩

theorem Good.step_letter (good : Good (some char) parser) (letter : IsLetter char)
    (next : Option Char) : Good next (parser.step char next) := by
  rw [Parser.step, if_neg letter.2.1, if_neg letter.2.2, if_neg (by simp [letter.1])]
  by_cases ends : (parser.isDigit && !parser.buf.isEmpty) = true
  · simp only [ends, if_true]
    simp only [Bool.and_eq_true, Bool.not_eq_true', isEmpty_eq_false_iff] at ends
    rcases ends with ⟨isDigit, ne⟩
    have flushed := (good.flush ne (Or.inl isDigit) (some char)).pushList
    rw [isDigit] at flushed
    refine ⟨?_, flushed.top, flushed.outer⟩
    exact flushed.piece.letter letter (fun _ => rfl) next
  · simp only [ends]
    refine ⟨?_, good.top, good.outer⟩
    apply good.piece.letter letter
    intro isDigit
    simpa [isDigit] using ends

theorem Good.step (good : Good (some char) parser) (next : Option Char) :
    Good next (parser.step char next) := by
  by_cases dot : char = '.'
  · rw [Parser.step, if_pos dot]
    apply good.flushSeparated
    rw [dot]
    rfl
  by_cases hyphen : char = '-'
  · rw [hyphen] at good ⊢
    exact good.step_hyphen next
  by_cases digit : char.isDigit
  · exact good.step_digit digit next
  · exact good.step_letter ⟨by simpa using digit, dot, hyphen⟩ next

theorem Good.run {chars : List Char} (good : Good chars.head? parser) :
    Good none (parser.run chars) := by
  induction chars generalizing parser with
  | nil => exact good
  | cons char rest ih => exact ih (good.step rest.head?)

theorem Good.finish (good : Good none parser) : Good none parser.finish := by
  rw [Parser.finish]
  split
  · exact good
  case isFalse ne =>
    rw [List.isEmpty_iff] at ne
    split
    · have flushed := good.pushListUnlessEmpty.flush
        (by rwa [pushListUnlessEmpty_buf]) (Or.inr rfl) none
      rwa [pushListUnlessEmpty_isDigit] at flushed
    · exact good.flush ne (Or.inr rfl) none

theorem collapse_eq_build {tokens : List Token} {outer : List (List Item)}
    (valid : ∀ token ∈ tokens, token.Valid) (flat : ∀ items ∈ outer, Flat items) :
    ∃ tokens', collapse (build tokens) outer = build (trim tokens') ∧
      ∀ token ∈ tokens', token.Valid := by
  induction outer generalizing tokens with
  | nil => exact ⟨tokens, normalize_build tokens, valid⟩
  | cons parent outer ih =>
    rcases flat parent mem_cons_self with ⟨parents, rfl, parentFlat, parentValid⟩
    have closed : build parents ++ [.list (normalize (build tokens))] =
        build (parents ++ .nested :: trim tokens) := by
      rw [build_append parentFlat, normalize_build]
      rfl
    rw [collapse, closed]
    apply ih
    · intro token mem
      rcases mem_append.mp mem with inParent | inside
      · exact parentValid token inParent
      · rcases mem_cons.mp inside with rfl | old
        · trivial
        · exact valid token ((trim_sublist tokens).subset old)
    · intro items mem
      exact flat items (mem_cons_of_mem _ mem)

theorem parse_eq_build (ver : List Char) :
    ∃ tokens, parse ver = build (trim tokens) ∧ ∀ token ∈ tokens, token.Valid := by
  have good : Good none (run {} ver).finish := (Good.run (good_initial : Good ver.head? {})).finish
  rcases good.top with ⟨tokens, isTop, -, valid⟩
  rw [parse, isTop]
  exact collapse_eq_build valid good.outer

end Parser

structure Normalized (version : Version) : Prop where
  items : version.items = build version.tokens
  valid : ∀ token ∈ version.tokens, token.Valid
  trimmed : Trimmed version.tokens

theorem normalized_parse (lower : String → String) (text : String) :
    Normalized (parse lower text) := by
  rcases Parser.parse_eq_build (lower text).toList with ⟨tokens, parsed, valid⟩
  have items : (parse lower text).items = build (trim tokens) := parsed
  have trimmed : (parse lower text).tokens = trim tokens := by
    rw [Version.tokens, items, flatten_build]
  refine ⟨?_, ?_, ?_⟩
  · rw [trimmed]
    exact items
  · intro token mem
    rw [trimmed] at mem
    exact valid token ((trim_sublist tokens).subset mem)
  · rw [trimmed]
    exact trimmed_trim tokens

theorem Normalized.cmp_eq {left right : Version} (leftNormalized : Normalized left)
    (rightNormalized : Normalized right) :
    left.cmp right = tokenOrder.compare left.tokens right.tokens := by
  rw [cmp, leftNormalized.items, rightNormalized.items, compareLists_build]

end Normal

variable (lower : String → String)

/-- Comparison of versions is reflexive and oriented, and transitive on three of them
exactly when their tokens are coherent. -/
theorem preorderOn_cmp_iff_coherent (first second third : String) :
    (parse lower first).cmp (parse lower first) = .eq ∧
    (parse lower first).cmp (parse lower second) =
      ((parse lower second).cmp (parse lower first)).swap ∧
    (PreorderOn cmp (parse lower first) (parse lower second) (parse lower third) ↔
      tokenOrder.Coherent (parse lower first).tokens (parse lower second).tokens
        (parse lower third).tokens) := by
  have cmpTokens : ∀ left right : String, (parse lower left).cmp (parse lower right) =
        tokenOrder.compare (parse lower left).tokens (parse lower right).tokens :=
    fun left right =>
      (normalized_parse lower left).cmp_eq (normalized_parse lower right)
  refine ⟨?_, ?_, ?_⟩
  · rw [cmpTokens, PaddedOrder.compare_self]
  · rw [cmpTokens, cmpTokens, PaddedOrder.compare_swap]
  · rw [← PaddedOrder.preorderOn_compare_iff]
    simp only [PreorderOn, TransitiveAt, cmpTokens]

/-- Comparing two versions the other way around gives the reverse. -/
theorem cmp_antisymmetric (left right : String) : (parse lower left).cmp (parse lower right) =
      ((parse lower right).cmp (parse lower left)).swap := by
  have leftNormalized := normalized_parse lower left
  have rightNormalized := normalized_parse lower right
  rw [leftNormalized.cmp_eq rightNormalized, rightNormalized.cmp_eq leftNormalized]
  exact tokenOrder.compare_swap _ _

/-- The versions `1`, `1-x` and `1-0.beta` form a cycle. -/
theorem cmp_not_transitive : ¬ ∀ first second third : String,
      TransitiveAt cmp (parse asciiLowercase first) (parse asciiLowercase second)
        (parse asciiLowercase third) := by
  intro transitive
  have firstSecond :
      (parse asciiLowercase "1").cmp (parse asciiLowercase "1-x") = .lt := by decide +kernel
  have secondThird : (parse asciiLowercase "1-x").cmp (parse asciiLowercase "1-0.beta") = .lt := by
    decide +kernel
  have firstThird : (parse asciiLowercase "1").cmp (parse asciiLowercase "1-0.beta") = .gt := by
    decide +kernel
  have below := transitive "1" "1-x" "1-0.beta"
  rw [TransitiveAt, firstSecond, secondThird, firstThird] at below
  simp at below

end Comparison

open List

theorem comparableQualifier_of_unknown {name : Text} (noRelease : name ∉ releaseQualifiers)
    (unknown : name ∉ qualifiers) : comparableQualifier name = '7' :: '-' :: name := by
  have notFound : qualifiers.findIdx? (· == name) = none := by
    rw [findIdx?_eq_none_iff]
    intro other mem
    rw [beq_eq_false_iff_ne]
    rintro rfl
    exact unknown mem
  rw [comparableQualifier, if_neg noRelease, notFound]
  rfl

theorem comparableQualifier_injective {left right : Text}
    (leftRelease : left ∉ releaseQualifiers) (rightRelease : right ∉ releaseQualifiers)
    (same : comparableQualifier left = comparableQualifier right) : left = right := by
  have short : ∀ name ∈ qualifiers, (comparableQualifier name).length = 1 := by decide
  by_cases leftKnown : left ∈ qualifiers
  · by_cases rightKnown : right ∈ qualifiers
    · have known : ∀ first ∈ qualifiers, ∀ second ∈ qualifiers,
          comparableQualifier first = comparableQualifier second → first = second := by decide
      exact known left leftKnown right rightKnown same
    · have len := short left leftKnown
      rw [same, comparableQualifier_of_unknown rightRelease rightKnown] at len
      simp at len
  · rw [comparableQualifier_of_unknown leftRelease leftKnown] at same
    by_cases rightKnown : right ∈ qualifiers
    · have len := short right rightKnown
      rw [← same] at len
      simp at len
    · rw [comparableQualifier_of_unknown rightRelease rightKnown] at same
      simpa using same

def Token.IsRelease : Token → Prop
  | .qualifier name => name ∈ releaseQualifiers
  | .numbered name _ => name ∈ releaseQualifiers
  | _ => False

theorem Token.eq_of_cmp {left right : Token} (leftRelease : ¬ left.IsRelease)
    (rightRelease : ¬ right.IsRelease) (same : left.cmp right = .eq) : left = right := by
  rw [Token.cmp_eq_eq] at same
  rcases same with ⟨rank, name, fused, digits⟩
  cases left <;> cases right <;>
    simp [Token.rank, Token.fused, Token.comparableName, Token.digits] at rank fused name digits
  case integer.integer => rw [digits]
  case qualifier.qualifier =>
    rw [comparableQualifier_injective leftRelease rightRelease name]
  case numbered.numbered =>
    rw [comparableQualifier_injective leftRelease rightRelease name, digits]
  case nested.nested => rfl

theorem Token.nested_or_null_of_pad {token : Token} (valid : token.Valid)
    (noRelease : ¬ token.IsRelease) (padding : token.pad = .eq) :
    token = .nested ∨ token.isNull = true := by
  have release : ∀ {name : Text}, name ∉ releaseQualifiers → IsName name →
      compare (comparableQualifier name) releaseIndex ≠ .eq := by
    intro name noRelease isName equal
    have empty : comparableQualifier name = comparableQualifier [] :=
      Std.LawfulEqOrd.eq_of_compare equal
    exact isName.1 (comparableQualifier_injective noRelease (by decide) empty)
  cases token with
  | integer digits =>
    right
    simpa [Token.pad, Token.isNull] using padding
  | qualifier name => exact absurd padding (release noRelease valid)
  | numbered name digits => exact absurd padding (release noRelease valid.1)
  | nested => exact Or.inl rfl

theorem Trimmed.tail {token : Token} {rest : List Token} (trimmed : Trimmed (token :: rest)) :
    Trimmed rest := by
  intro last isLast
  apply trimmed last
  rw [getLast?_cons, isLast]
  rfl

structure Faithful (tokens : List Token) : Prop where
  valid : ∀ token ∈ tokens, token.Valid
  noRelease : ∀ token ∈ tokens, ¬ token.IsRelease
  trimmed : Trimmed tokens

theorem Faithful.tail {token : Token} {rest : List Token} (faithful : Faithful (token :: rest)) :
    Faithful rest where
  valid := fun other mem => faithful.valid other (mem_cons_of_mem _ mem)
  noRelease := fun other mem => faithful.noRelease other (mem_cons_of_mem _ mem)
  trimmed := faithful.trimmed.tail

theorem Faithful.eq_nil_of_padAll {tokens : List Token} (faithful : Faithful tokens)
    (padding : tokenOrder.padAll tokens = .eq) : tokens = [] := by
  rw [PaddedOrder.padAll_eq_eq] at padding
  rcases eq_nil_or_concat' tokens with empty | ⟨front, last, rfl⟩
  · exact empty
  · have mem : last ∈ front ++ [last] := by simp
    have kept := faithful.trimmed last (by simp)
    rcases Token.nested_or_null_of_pad (faithful.valid last mem)
      (faithful.noRelease last mem) (padding last mem) with nested | null
    · exact absurd nested kept.1
    · rw [kept.2] at null
      contradiction

theorem Faithful.eq_of_compare {left right : List Token} (leftFaithful : Faithful left)
    (rightFaithful : Faithful right) (same : tokenOrder.compare left right = .eq) :
    left = right := by
  induction left generalizing right with
  | nil =>
    rw [PaddedOrder.compare_nil_left, Ordering.swap_eq_eq] at same
    exact (rightFaithful.eq_nil_of_padAll same).symm
  | cons first rest ih =>
    rcases right with _ | ⟨second, _⟩
    · rw [PaddedOrder.compare_nil_right] at same
      exact leftFaithful.eq_nil_of_padAll same
    · rw [PaddedOrder.compare_cons, Ordering.then_eq_eq] at same
      rw [Token.eq_of_cmp (leftFaithful.noRelease first mem_cons_self)
          (rightFaithful.noRelease second mem_cons_self) same.1,
        ih leftFaithful.tail rightFaithful.tail same.2]

namespace Token

def name : Token → Text
  | qualifier name => name
  | numbered name _ => name
  | _ => []

def text (token : Token) : Text := token.name ++ token.digits

end Token

mutual

def render : List Token → Text
  | [] => []
  | .nested :: rest => render rest
  | token :: rest => token.text ++ renderTail rest

def renderTail : List Token → Text
  | [] => []
  | .nested :: rest => '-' :: render rest
  | token :: rest => '.' :: token.text ++ renderTail rest

end

variable (tokens : List Token)

theorem display_build : listDisplay (build tokens) = render tokens ∧
      tailDisplay (build tokens) = renderTail tokens := by
  induction tokens with
  | nil => exact ⟨rfl, rfl⟩
  | cons token rest ih =>
    cases token <;>
      simp [build, listDisplay, tailDisplay, itemDisplay, render, renderTail, Token.text,
        Token.name, Token.digits, ih]

theorem append_injective {holds : Char → Bool} {left left' right right' : Text}
    (front : ∀ char ∈ left, holds char) (front' : ∀ char ∈ left', holds char)
    (back : ∀ char ∈ right.head?, holds char = false)
    (back' : ∀ char ∈ right'.head?, holds char = false)
    (same : left ++ right = left' ++ right') : left = left' ∧ right = right' := by
  have takes : ∀ {front back : Text}, (∀ char ∈ front, holds char) →
      (∀ char ∈ back.head?, holds char = false) → (front ++ back).takeWhile holds = front := by
    intro front back inside outside
    rw [takeWhile_append_of_pos inside]
    rcases back with _ | ⟨char, _⟩
    · simp
    · simp [outside char rfl]
  have equal : left = left' := by
    rw [← takes front back, same, takes front' back']
  rw [equal] at same
  exact ⟨equal, append_cancel_left same⟩

variable {token : Token} {rest : List Token}

theorem Token.name_of_valid (valid : token.Valid) : ∀ char ∈ token.name, IsLetter char := by
  cases token with
  | qualifier name => exact valid.2
  | numbered name digits => exact valid.1.2
  | _ => simp [Token.name]

theorem Token.digits_of_valid (valid : token.Valid) : ∀ char ∈ token.digits, char.isDigit := by
  cases token with
  | integer digits => exact valid.2
  | numbered name digits => exact valid.2.2
  | _ => simp [Token.digits]

def Token.ofParts (name digits : Text) : Token :=
  if name = [] then .integer digits
  else if digits = [] then .qualifier name else .numbered name digits

theorem Token.ofParts_eq (valid : token.Valid) (flat : token ≠ .nested) :
    Token.ofParts token.name token.digits = token := by
  cases token with
  | integer digits => rfl
  | qualifier name => exact if_neg valid.1
  | numbered name digits => exact (if_neg valid.1.1).trans (if_neg valid.2.1)
  | nested => exact absurd rfl flat

theorem Token.eq_of_text {left right : Token} (leftValid : left.Valid)
    (rightValid : right.Valid) (leftFlat : left ≠ .nested) (rightFlat : right ≠ .nested)
    (same : left.text = right.text) : left = right := by
  have letters : ∀ {token : Token}, token.Valid → ∀ char ∈ token.name, (!char.isDigit) = true := by
    intro token valid char mem
    rw [(Token.name_of_valid valid char mem).1]
    rfl
  have digits : ∀ {token : Token}, token.Valid →
      ∀ char ∈ token.digits.head?, (!char.isDigit) = false := by
    intro token valid char mem
    rw [Token.digits_of_valid valid char (mem_of_mem_head? mem)]
    rfl
  rcases append_injective (letters leftValid) (letters rightValid) (digits leftValid)
    (digits rightValid) same with ⟨sameName, sameDigits⟩
  rw [← Token.ofParts_eq leftValid leftFlat, sameName, sameDigits,
    Token.ofParts_eq rightValid rightFlat]

theorem render_cons (flat : token ≠ .nested) (rest : List Token) :
    render (token :: rest) = token.text ++ renderTail rest := by
  cases token with
  | nested => exact absurd rfl flat
  | _ => rfl

theorem renderTail_cons (flat : token ≠ .nested) (rest : List Token) :
    renderTail (token :: rest) = '.' :: (token.text ++ renderTail rest) := by
  cases token with
  | nested => exact absurd rfl flat
  | _ => rfl

def isSeparator (char : Char) : Bool := char == '.' || char == '-'

theorem isSeparator_head?_renderTail : ∀ char ∈ (renderTail tokens).head?, isSeparator char := by
  rcases tokens with _ | ⟨_ | _ | _ | _, rest⟩ <;> simp [renderTail, isSeparator]

theorem Token.not_isSeparator_of_valid (valid : token.Valid) :
    ∀ char ∈ token.text, isSeparator char = false := by
  intro char mem
  rcases mem_append.mp mem with inName | inDigits
  · have letter := Token.name_of_valid valid char inName
    simp [isSeparator, letter.2.1, letter.2.2]
  · have digit := Token.digits_of_valid valid char inDigits
    rw [isSeparator, Bool.or_eq_false_iff, beq_eq_false_iff_ne, beq_eq_false_iff_ne]
    refine ⟨?_, ?_⟩
    · rintro rfl
      exact absurd digit (by decide)
    · rintro rfl
      exact absurd digit (by decide)

theorem Token.text_ne_nil (valid : token.Valid) (flat : token ≠ .nested) : token.text ≠ [] := by
  cases token with
  | integer digits => exact valid.1
  | qualifier name => simpa [Token.text, Token.name, Token.digits] using valid.1
  | numbered name digits => simp [Token.text, Token.name, valid.1.1]
  | nested => exact absurd rfl flat

theorem text_append_renderTail {left right : Token} {lefts rights : List Token}
    (leftValid : left.Valid) (rightValid : right.Valid) (leftFlat : left ≠ .nested)
    (rightFlat : right ≠ .nested)
    (same : left.text ++ renderTail lefts = right.text ++ renderTail rights) :
    left = right ∧ renderTail lefts = renderTail rights := by
  have inside : ∀ {token : Token}, token.Valid →
      ∀ char ∈ token.text, (!isSeparator char) = true := by
    intro token valid char mem
    rw [Token.not_isSeparator_of_valid valid char mem]
    rfl
  have behind : ∀ (tokens : List Token), ∀ char ∈ (renderTail tokens).head?,
      (!isSeparator char) = false := by
    intro tokens char mem
    rw [isSeparator_head?_renderTail tokens char mem]
    rfl
  rcases append_injective (inside leftValid) (inside rightValid) (behind lefts)
    (behind rights) same with ⟨sameText, sameTail⟩
  exact ⟨Token.eq_of_text leftValid rightValid leftFlat rightFlat sameText, sameTail⟩

def NoLeadingList : Prop := tokens.head? ≠ some .nested ∧
    List.IsChain (fun first second => ¬ (first = .nested ∧ second = .nested)) tokens

structure Readable : Prop where
  valid : ∀ token ∈ tokens, token.Valid
  chain : List.IsChain (fun first second => ¬ (first = .nested ∧ second = .nested)) tokens

theorem Readable.tail (readable : Readable (token :: rest)) : Readable rest where
  valid := fun other mem => readable.valid other (mem_cons_of_mem _ mem)
  chain := readable.chain.of_cons

theorem Readable.head (readable : Readable (token :: rest)) : token.Valid :=
  readable.valid token mem_cons_self

theorem Readable.inner (readable : Readable (.nested :: rest)) : rest.head? ≠ some .nested := by
  intro leading
  have apart := (isChain_cons.mp readable.chain).1 .nested leading
  exact apart ⟨rfl, rfl⟩

theorem render_injective {left right : List Token} (leftReadable : Readable left)
    (rightReadable : Readable right) : (left.head? ≠ some .nested → right.head? ≠ some .nested →
      render left = render right → left = right) ∧
    (renderTail left = renderTail right → left = right) := by
  induction left generalizing right with
  | nil =>
    rcases right with _ | ⟨second, _⟩
    · exact ⟨fun _ _ _ => rfl, fun _ => rfl⟩
    · refine ⟨?_, ?_⟩
      · intro _ rightPlain same
        have flat : second ≠ .nested := by simpa using rightPlain
        rw [render_cons flat] at same
        have empty := (append_eq_nil_iff.mp same.symm).1
        exact absurd empty (Token.text_ne_nil rightReadable.head flat)
      · intro same
        cases second <;> simp [renderTail] at same
  | cons first rest ih =>
    rcases right with _ | ⟨second, others⟩
    · refine ⟨?_, ?_⟩
      · intro leftPlain _ same
        have flat : first ≠ .nested := by simpa using leftPlain
        rw [render_cons flat] at same
        have empty := (append_eq_nil_iff.mp same).1
        exact absurd empty (Token.text_ne_nil leftReadable.head flat)
      · intro same
        cases first <;> simp [renderTail] at same
    · have tails := ih leftReadable.tail rightReadable.tail
      have flatCase : first ≠ .nested → second ≠ .nested →
          first.text ++ renderTail rest = second.text ++ renderTail others →
            first :: rest = second :: others := by
        intro firstFlat secondFlat same
        rcases text_append_renderTail leftReadable.head rightReadable.head firstFlat
          secondFlat same with ⟨sameToken, sameTail⟩
        rw [sameToken, tails.2 sameTail]
      refine ⟨?_, ?_⟩
      · intro leftPlain rightPlain same
        have firstFlat : first ≠ .nested := by simpa using leftPlain
        have secondFlat : second ≠ .nested := by simpa using rightPlain
        rw [render_cons firstFlat, render_cons secondFlat] at same
        exact flatCase firstFlat secondFlat same
      · intro same
        by_cases firstNested : first = .nested
        · by_cases secondNested : second = .nested
          · subst firstNested secondNested
            rw [tails.1 leftReadable.inner rightReadable.inner (List.cons.inj same).2]
          · rw [firstNested, renderTail_cons secondNested] at same
            simp [renderTail] at same
        · by_cases secondNested : second = .nested
          · rw [secondNested, renderTail_cons firstNested] at same
            simp [renderTail] at same
          · rw [renderTail_cons firstNested, renderTail_cons secondNested] at same
            exact flatCase firstNested secondNested (List.cons.inj same).2

variable (lower : String → String)

theorem canonical_parse (text : String) : (parse lower text).canonical =
      String.ofList (render (parse lower text).tokens) := by
  rw [← (display_build _).1, ← (normalized_parse lower text).items]
  rfl

theorem parse_beq_iff (left right : String) : (parse lower left == parse lower right) = true ↔
      render (parse lower left).tokens = render (parse lower right).tokens := by
  have unfolded : (parse lower left == parse lower right) =
      ((parse lower left).canonical == (parse lower right).canonical) := rfl
  rw [unfolded, beq_iff_eq, canonical_parse, canonical_parse, String.ofList_inj]

/-- Versions without release qualifiers are equal if they compare equal, and versions in
which no list begins with a list compare equal if they are equal. -/
theorem beq_agrees_with_cmp (left right : String) :
    ((∀ token ∈ (parse lower left).tokens, ¬ token.IsRelease) →
      (∀ token ∈ (parse lower right).tokens, ¬ token.IsRelease) →
      (parse lower left).cmp (parse lower right) = .eq →
        (parse lower left == parse lower right) = true) ∧
    (NoLeadingList (parse lower left).tokens → NoLeadingList (parse lower right).tokens →
      (parse lower left == parse lower right) = true →
        (parse lower left).cmp (parse lower right) = .eq) := by
  have leftNormalized := normalized_parse lower left
  have rightNormalized := normalized_parse lower right
  rw [parse_beq_iff, leftNormalized.cmp_eq rightNormalized]
  refine ⟨?_, ?_⟩
  · intro leftRelease rightRelease same
    have leftFaithful : Faithful (parse lower left).tokens :=
      ⟨leftNormalized.valid, leftRelease, leftNormalized.trimmed⟩
    have rightFaithful : Faithful (parse lower right).tokens :=
      ⟨rightNormalized.valid, rightRelease, rightNormalized.trimmed⟩
    rw [leftFaithful.eq_of_compare rightFaithful same]
  · intro leftPlain rightPlain same
    have leftReadable : Readable (parse lower left).tokens := ⟨leftNormalized.valid, leftPlain.2⟩
    have rightReadable : Readable (parse lower right).tokens :=
      ⟨rightNormalized.valid, rightPlain.2⟩
    rw [(render_injective leftReadable rightReadable).1 leftPlain.1 rightPlain.1 same]
    exact tokenOrder.compare_self _

theorem beq_agrees_with_cmp_padded :
    (parse asciiLowercase "1.0-RC1" == parse asciiLowercase "1-rc-1") = true ∧
      (parse asciiLowercase "1.0-RC1").cmp (parse asciiLowercase "1-rc-1") = .eq := by
  have leftTokens : (parse asciiLowercase "1.0-RC1").tokens =
      [.integer ['1'], .nested, .numbered ['r', 'c'] ['1']] := by decide +kernel
  have rightTokens : (parse asciiLowercase "1-rc-1").tokens =
      [.integer ['1'], .nested, .numbered ['r', 'c'] ['1']] := by decide +kernel
  have agrees := beq_agrees_with_cmp asciiLowercase "1.0-RC1" "1-rc-1"
  rw [leftTokens, rightTokens] at agrees
  have equal := agrees.1 (by simp [Token.IsRelease, releaseQualifiers])
    (by simp [Token.IsRelease, releaseQualifiers]) (by decide +kernel)
  exact ⟨equal, agrees.2 (by simp [NoLeadingList]) (by simp [NoLeadingList]) equal⟩

/-- `1ga` sorts like `1` and is not equal to it; `a` is equal to `0a` and sorts before it. -/
theorem beq_disagrees_with_cmp :
    ((parse asciiLowercase "1ga").cmp (parse asciiLowercase "1") = .eq ∧
      (parse asciiLowercase "1ga" == parse asciiLowercase "1") = false) ∧
    ((parse asciiLowercase "a" == parse asciiLowercase "0a") = true ∧
      (parse asciiLowercase "a").cmp (parse asciiLowercase "0a") = .lt) := by
  decide +kernel

end Barista.Version
