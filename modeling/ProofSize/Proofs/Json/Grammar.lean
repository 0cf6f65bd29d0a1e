import ProofSize.Json.Text

/-!
# The grammar of JSON

A text spells a document by the rules of the JSON grammar: blanks between the parts, texts with their
escapes, numerals with a fraction and a power of ten, lists and tables. A numeral stands for an exact
decimal number. The rules are not a procedure: a text may be tried against them in any order.

`Reads cs phrase rest` says that a text starts with a phrase and what is left behind it, so that the
parts of a document follow each other without a word about where each of them ends.
-/

namespace ProofSize.Json

/-- What a JSON text says. A number is `digits * 10 ^ exponent`, with a sign that zero has too. -/
inductive Document where
  | null
  | boolean (b : Bool)
  | text (s : String)
  | number (negative : Bool) (digits : Nat) (exponent : Int)
  | list (items : List Document)
  | table (members : List (String × Document))

/-! ### Numerals -/

/-- The power of ten behind a numeral. -/
structure Power where
  mark : Char
  sign : Option Char
  digits : List Char

/-- A number as it is written. Without digits in the fraction there is no point. -/
structure Numeral where
  negative : Bool
  whole : List Char
  fraction : List Char
  power : Option Power

/-- The text has digits only. -/
def Digits (cs : List Char) : Prop := ∀ c ∈ cs, c.isDigit = true

/-- The power is written by the rules. -/
structure Power.Proper (p : Power) : Prop where
  mark : p.mark = 'e' ∨ p.mark = 'E'
  sign : ∀ c ∈ p.sign, c = '+' ∨ c = '-'
  ne_nil : p.digits ≠ []
  digits : Digits p.digits

/-- The mark, the sign if there is one, and the digits. -/
def Power.text (p : Power) : List Char := p.mark :: (p.sign.toList ++ p.digits)

/-- The exponent that the digits denote, below zero behind a minus. -/
def Power.value (p : Power) : Int :=
  if p.sign = some '-' then -(Nat.ofDigitChars 10 p.digits 0 : Nat) else Nat.ofDigitChars 10 p.digits 0

namespace Numeral

/-- The numeral is written by the rules. The first of several digits is not a zero. -/
structure Proper (n : Numeral) : Prop where
  ne_nil : n.whole ≠ []
  whole : Digits n.whole
  leading : n.whole.head? = some '0' → n.whole = ['0']
  fraction : Digits n.fraction
  power : ∀ p ∈ n.power, p.Proper

/-- The power of ten, if there is one. -/
def powerText (n : Numeral) : List Char :=
  match n.power with
  | none => []
  | some p => p.text

/-- The point and the digits behind it, if there are any. -/
def fractionText (n : Numeral) : List Char := if n.fraction = [] then [] else '.' :: n.fraction

/-- The numeral as it stands in a document. -/
def text (n : Numeral) : List Char :=
  (if n.negative then ['-'] else []) ++ (n.whole ++ (n.fractionText ++ n.powerText))

/-- All digits before the power, read as one number. -/
def digits (n : Numeral) : Nat := Nat.ofDigitChars 10 (n.whole ++ n.fraction) 0

/-- The power of ten by which the digits are multiplied. -/
def exponent (n : Numeral) : Int :=
  (match n.power with
    | none => 0
    | some p => p.value) - n.fraction.length

/-- The number that the numeral stands for. -/
def document (n : Numeral) : Document := .number n.negative n.digits n.exponent

end Numeral

/-! ### Texts -/

/-- What follows an opening quotation mark spells these characters, and `rest` is left behind the
    closing mark. -/
inductive ReadsText : List Char → List Char → List Char → Prop
  | done {rest : List Char} : ReadsText ('"' :: rest) [] rest
  | plain {c : Char} {cs s rest : List Char} :
      0x20 ≤ c.toNat → c ≠ '"' → c ≠ '\\' → ReadsText cs s rest → ReadsText (c :: cs) (c :: s) rest
  | escape {c d : Char} {cs s rest : List Char} :
      escaped? c = some d → ReadsText cs s rest → ReadsText ('\\' :: c :: cs) (d :: s) rest
  | unit {a b c d : Char} {n : Nat} {cs s rest : List Char} :
      hexUnit? a b c d = some n → isLeading n = false → isTrailing n = false →
      ReadsText cs s rest → ReadsText ('\\' :: 'u' :: a :: b :: c :: d :: cs) (Char.ofNat n :: s) rest
  | pair {a b c d e f g h : Char} {n m : Nat} {cs s rest : List Char} :
      hexUnit? a b c d = some n → isLeading n = true →
      hexUnit? e f g h = some m → isTrailing m = true → ReadsText cs s rest →
      ReadsText ('\\' :: 'u' :: a :: b :: c :: d :: '\\' :: 'u' :: e :: f :: g :: h :: cs)
        (pairChar n m :: s) rest

/-! ### Documents -/

/-- What is left of a text when blanks have been passed over, not all of them perhaps. -/
inductive Blanks : List Char → List Char → Prop
  | none {cs : List Char} : Blanks cs cs
  | blank {c : Char} {cs rest : List Char} :
      isBlank c = true → Blanks cs rest → Blanks (c :: cs) rest

/-- A part of a document. -/
inductive Phrase where
  | value (d : Document)
  /-- What follows an item in a list, up to the closing bracket. -/
  | items (ds : List Document)
  /-- A key and its value. -/
  | member (key : String) (d : Document)
  /-- What follows a member in a table, up to the closing bracket. -/
  | members (ms : List (String × Document))

/-- A text starts with a phrase, and `rest` is left behind it. -/
inductive Reads : List Char → Phrase → List Char → Prop
  | null {rest : List Char} : Reads ('n' :: 'u' :: 'l' :: 'l' :: rest) (.value .null) rest
  | yes {rest : List Char} : Reads ('t' :: 'r' :: 'u' :: 'e' :: rest) (.value (.boolean true)) rest
  | no {rest : List Char} :
      Reads ('f' :: 'a' :: 'l' :: 's' :: 'e' :: rest) (.value (.boolean false)) rest
  | text {cs s rest : List Char} :
      ReadsText cs s rest → Reads ('"' :: cs) (.value (.text (String.ofList s))) rest
  | number {n : Numeral} {cs rest : List Char} :
      n.Proper → cs = n.text ++ rest → Reads cs (.value n.document) rest
  | emptyList {cs rest : List Char} :
      Blanks cs (']' :: rest) → Reads ('[' :: cs) (.value (.list [])) rest
  | list {cs cs₁ cs₂ rest : List Char} {d : Document} {ds : List Document} :
      Blanks cs cs₁ → Reads cs₁ (.value d) cs₂ → Reads cs₂ (.items ds) rest →
      Reads ('[' :: cs) (.value (.list (d :: ds))) rest
  | lastItem {cs rest : List Char} : Blanks cs (']' :: rest) → Reads cs (.items []) rest
  | nextItem {cs cs₁ cs₂ cs₃ rest : List Char} {d : Document} {ds : List Document} :
      Blanks cs (',' :: cs₁) → Blanks cs₁ cs₂ → Reads cs₂ (.value d) cs₃ →
      Reads cs₃ (.items ds) rest → Reads cs (.items (d :: ds)) rest
  | emptyTable {cs rest : List Char} :
      Blanks cs ('\x7d' :: rest) → Reads ('\x7b' :: cs) (.value (.table [])) rest
  | table {cs cs₁ cs₂ rest : List Char} {key : String} {d : Document}
      {ms : List (String × Document)} :
      Blanks cs cs₁ → Reads cs₁ (.member key d) cs₂ → Reads cs₂ (.members ms) rest →
      Reads ('\x7b' :: cs) (.value (.table ((key, d) :: ms))) rest
  | member {cs cs₁ cs₂ cs₃ s rest : List Char} {d : Document} :
      ReadsText cs s cs₁ → Blanks cs₁ (':' :: cs₂) → Blanks cs₂ cs₃ →
      Reads cs₃ (.value d) rest → Reads ('"' :: cs) (.member (String.ofList s) d) rest
  | lastMember {cs rest : List Char} : Blanks cs ('\x7d' :: rest) → Reads cs (.members []) rest
  | nextMember {cs cs₁ cs₂ cs₃ rest : List Char} {key : String} {d : Document}
      {ms : List (String × Document)} :
      Blanks cs (',' :: cs₁) → Blanks cs₁ cs₂ → Reads cs₂ (.member key d) cs₃ →
      Reads cs₃ (.members ms) rest → Reads cs (.members ((key, d) :: ms)) rest

/-- The whole text spells the document, with blanks around it perhaps. -/
def Spells (text : String) (d : Document) : Prop :=
  ∃ cs rest, Blanks text.toList cs ∧ Reads cs (.value d) rest ∧ Blanks rest []

end ProofSize.Json
