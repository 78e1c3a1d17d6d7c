import CohortQuery.Decimal.Power
import CohortQuery.Json.Fault
import CohortQuery.Json.Value

/-!
# Tokens of a JSON text

A text is cut into tokens before anything is built from it. A literal that is well cut
but denotes no value (a number beyond the range, half of a surrogate pair) is a token
whose content is a fault: who skips the literal does not see it. A literal that cannot
be cut is `broken` and the last token; the two faults are for those who read it and for
those who skip it.
-/

set_option autoImplicit false

namespace CohortQuery.Json

open CohortQuery.Decimal (twoTo)
open CohortQuery.Text (isDigit ofDigits)

inductive Lexeme where
  | openList
  | closeList
  | openObject
  | closeObject
  | comma
  | colon
  | null
  | bool (value : Bool)
  | number (value : Except Fault Number)
  | text (value : Except Fault String)
  | broken (read skipped : Fault)
  | stray

structure Token where
  lexeme : Lexeme
  /-- Before the first byte. -/
  start : Position
  /-- Behind the first byte. -/
  peek : Position
  stop : Position
  /-- Whether the first character is a quote. -/
  quotes : Bool

/-- A lexeme with the position behind it and what is left of the text. -/
structure Cut where
  lexeme : Lexeme
  stop : Position
  rest : List Char

def isSpace (c : Char) : Bool :=
  c = ' ' || c = '\n' || c = '\t' || c = '\r'

def cutWord (lexeme : Lexeme) (p : Position) : (letters cs : List Char) → Cut
  | [], cs => ⟨lexeme, p, cs⟩
  | _ :: _, [] => let f := ⟨.endInValue, p⟩; ⟨.broken f f, p, []⟩
  | l :: letters, c :: cs =>
    if c = l then cutWord lexeme (p.past c) letters cs
    else let f := ⟨.badWord, p.into c⟩; ⟨.broken f f, p, cs⟩

/-- The integers that stay integers; the others are real numbers. -/
def integerOf (negative : Bool) (n : Nat) : Option Int :=
  if negative then if n ≠ 0 ∧ n ≤ twoTo 63 then some (-n) else none
  else if n < twoTo 64 then some n else none

/-- Where the digits of an exponent, read one by one, first pass `2^31 - 1`. -/
def exponentOverflow (p : Position) (value : Nat) : List Char → Option Position
  | [] => none
  | d :: ds =>
    let value := 10 * value + Text.digitValue d
    if twoTo 31 - 1 < value then some (p.past d) else exponentOverflow (p.past d) value ds

/-- A number literal in parts: digits before and after the point, and the exponent with
the position of its digits. -/
structure Numeral where
  negative : Bool
  whole : List Char
  fraction : Option (List Char)
  exponent : Option (Bool × Position × List Char)

/-- Puts digits behind `n` as long as the number stays below `2^64`, and leaves the others. -/
def takeDigits (n : Nat) : List Char → Nat × List Char
  | [] => (n, [])
  | d :: ds =>
    let next := 10 * n + Text.digitValue d
    if next < twoTo 64 then takeDigits next ds else (n, d :: ds)

/-- The digits of the number, as far as they are taken, and the power of ten that they are
multiplied with. Digits of the whole part that are not taken still count as places. -/
def Numeral.significand (n : Numeral) : Nat × Int :=
  let (digits, dropped) := takeDigits 0 n.whole
  let fraction := n.fraction.getD []
  let (digits, left) := takeDigits digits fraction
  (digits, (dropped.length : Int) - (fraction.length - left.length : Nat))

/-- Powers of ten up to this one are held as numbers. -/
def heldPower : Nat := 308

def power (n : Nat) : Binary64 := .ofDecimal false 1 n

/-- The number divided by `10^places`, in steps each of which is rounded. -/
def shrink (x : Binary64) (places : Nat) : (turns : Nat) → Binary64
  | 0 => x
  | turns + 1 =>
    if places ≤ heldPower then x.div (power places)
    else if x = .zero false then x
    else shrink (x.div (power heldPower)) (places - heldPower) turns

/-- `digits · 10^exponent`, if that is no number beyond all finite ones. The digits are rounded
first, then the product. -/
def scaled? (digits : Nat) (exponent : Int) : Option Binary64 :=
  let x := Binary64.ofQuotient false digits 1
  if exponent < 0 then some (shrink x exponent.natAbs exponent.natAbs)
  else if exponent.toNat ≤ heldPower then
    let y := x.mul (power exponent.toNat)
    if y.isFinite then some y else none
  else if digits = 0 then some x
  else none

def Numeral.value (n : Numeral) (stop : Position) : Except Fault Number :=
  match n.fraction, n.exponent, integerOf n.negative (ofDigits n.whole) with
  | none, none, some i => .ok (.integer i)
  | _, _, _ =>
    let (digits, places) := n.significand
    match n.exponent with
    | none => scaled digits places
    | some (minus, p, ds) =>
      match exponentOverflow p 0 ds with
      | some at_ =>
        if minus || digits = 0 then .ok (.real (.zero n.negative))
        else .error ⟨.numberRange, at_⟩
      | none => scaled digits (if minus then places - ofDigits ds else places + ofDigits ds)
where
  scaled (digits : Nat) (exponent : Int) : Except Fault Number :=
    match scaled? digits exponent with
    | some x => .ok (.real (if n.negative then x.negated else x))
    | none => .error ⟨.numberRange, stop⟩

def brokenNumber (p : Position) (cs : List Char) : Cut :=
  match cs with
  | [] => ⟨.broken ⟨.endInValue, p⟩ ⟨.badNumber, p⟩, p, []⟩
  | c :: _ => let f := ⟨.badNumber, p.into c⟩; ⟨.broken f f, p, cs⟩

def cutExponent (n : Numeral) (p : Position) : List Char → Cut
  | [] => ⟨.number (n.value p), p, []⟩
  | c :: cs =>
    if c = 'e' ∨ c = 'E' then
      let p := p.past c
      let (minus, p, cs) := match cs with
        | '-' :: r => (true, p.past '-', r)
        | '+' :: r => (false, p.past '+', r)
        | r => (false, p, r)
      let ds := cs.takeWhile isDigit
      let rest := cs.dropWhile isDigit
      if ds.isEmpty then brokenNumber p rest
      else
        let stop := p.pastAll ds
        ⟨.number (Numeral.value ⟨n.negative, n.whole, n.fraction, some (minus, p, ds)⟩ stop),
          stop, rest⟩
    else ⟨.number (n.value p), p, c :: cs⟩

def cutFraction (negative : Bool) (whole : List Char) (p : Position) : List Char → Cut
  | '.' :: cs =>
    let p := p.past '.'
    let ds := cs.takeWhile isDigit
    let rest := cs.dropWhile isDigit
    if ds.isEmpty then brokenNumber p rest
    else cutExponent ⟨negative, whole, some ds, none⟩ (p.pastAll ds) rest
  | cs => cutExponent ⟨negative, whole, none, none⟩ p cs

def cutUnsigned (negative : Bool) (p : Position) (cs : List Char) : Cut :=
  let ds := cs.takeWhile isDigit
  match ds with
  | [] => brokenNumber p cs
  | '0' :: d :: _ =>
    let f := ⟨.badNumber, (p.past '0').into d⟩
    ⟨.broken f f, p, cs⟩
  | ds => cutFraction negative ds (p.pastAll ds) (cs.dropWhile isDigit)

def hexValue (c : Char) : Option Nat :=
  let n := c.toNat
  if 48 ≤ n ∧ n ≤ 57 then some (n - 48)
  else if 65 ≤ n ∧ n ≤ 70 then some (n - 55)
  else if 97 ≤ n ∧ n ≤ 102 then some (n - 87)
  else none

def hexQuad (a b c d : Char) : Option Nat := do
  return ((← hexValue a) * 16 + (← hexValue b)) * 256 + (← hexValue c) * 16 + (← hexValue d)

def simpleEscape (c : Char) : Option Char :=
  if c = '"' ∨ c = '\\' ∨ c = '/' then some c
  else if c = 'b' then some (Char.ofNat 8)
  else if c = 'f' then some (Char.ofNat 12)
  else if c = 'n' then some '\n'
  else if c = 'r' then some '\r'
  else if c = 't' then some '\t'
  else none

/-- What is known of a text inside its quotes: its first fault, the half of a surrogate
pair that waits for the other one, and the characters so far, the last one first. -/
structure TextScan where
  fault : Option Fault
  high : Option Nat
  chars : List Char

namespace TextScan

def blame (s : TextScan) (f : Fault) : TextScan :=
  { s with fault := s.fault.or (some f), high := none }

def push (s : TextScan) (c : Char) : TextScan :=
  { s with chars := c :: s.chars }

/-- A pair whose second half does not come is a fault behind what comes instead. -/
def dropHigh (s : TextScan) (at_ : Position) : TextScan :=
  if s.high.isSome then s.blame ⟨.cutEscape, at_⟩ else s

def isHigh (n : Nat) : Bool := 0xD800 ≤ n && n ≤ 0xDBFF

def isLow (n : Nat) : Bool := 0xDC00 ≤ n && n ≤ 0xDFFF

/-- A code unit given in hexadecimal digits, with the position behind them. -/
def unit (s : TextScan) (n : Nat) (p : Position) : TextScan :=
  match s.high with
  | some h =>
    if isLow n then
      { s with high := none
               chars := Char.ofNat (0x10000 + (h - 0xD800) * 0x400 + (n - 0xDC00)) :: s.chars }
    else s.blame ⟨.loneSurrogate, p⟩
  | none =>
    if isLow n then s.blame ⟨.loneSurrogate, p⟩
    else if isHigh n then { s with high := some n }
    else s.push (Char.ofNat n)

def content (s : TextScan) : Except Fault String :=
  match s.fault with
  | some f => .error f
  | none => .ok (String.ofList s.chars.reverse)

def cut (s : TextScan) (f : Fault) (rest : List Char) : Cut :=
  ⟨.broken (s.fault.getD f) f, f.position, rest⟩

end TextScan

def cutText (s : TextScan) (p : Position) : List Char → Cut
  | [] => s.cut ⟨.endInText, p⟩ []
  | c :: cs =>
    if c = '"' then ⟨.text (s.dropHigh (p.into c)).content, p.past c, cs⟩
    else if c = '\\' then
      match cs with
      | [] => s.cut ⟨.endInText, p.past c⟩ []
      | e :: es =>
        let q := (p.past c).past e
        if e = 'u' then
          match es with
          | h1 :: h2 :: h3 :: h4 :: rest =>
            match hexQuad h1 h2 h3 h4 with
            | some n =>
              let q := q.pastAll [h1, h2, h3, h4]
              cutText (s.unit n q) q rest
            | none => s.cut ⟨.badEscape, q.pastBytes 4 es⟩ rest
          | es =>
            if (String.ofList es).utf8ByteSize < 4 then s.cut ⟨.endInText, q.pastAll es⟩ []
            else s.cut ⟨.badEscape, q.pastBytes 4 es⟩ []
        else
          let s := s.dropHigh ((p.past c).into e)
          match simpleEscape e with
          | some x => cutText (s.push x) q es
          | none => s.cut ⟨.badEscape, (p.past c).into e⟩ es
    else
      let s := s.dropHigh (p.into c)
      if c.toNat < 32 then
        ⟨.broken (s.fault.getD ⟨.controlCharacter, p.into c⟩) ⟨.controlCharacter, p⟩, p, cs⟩
      else cutText (s.push c) (p.past c) cs

/-- The lexeme that starts with `c` at `p`; `cs` follows. -/
def cutLexeme (p : Position) (c : Char) (cs : List Char) : Cut :=
  let q := p.past c
  if c = '[' then ⟨.openList, q, cs⟩
  else if c = ']' then ⟨.closeList, q, cs⟩
  else if c = '\x7b' then ⟨.openObject, q, cs⟩
  else if c = '\x7d' then ⟨.closeObject, q, cs⟩
  else if c = ',' then ⟨.comma, q, cs⟩
  else if c = ':' then ⟨.colon, q, cs⟩
  else if c = 'n' then cutWord .null q ['u', 'l', 'l'] cs
  else if c = 't' then cutWord (.bool true) q ['r', 'u', 'e'] cs
  else if c = 'f' then cutWord (.bool false) q ['a', 'l', 's', 'e'] cs
  else if c = '"' then cutText ⟨none, none, []⟩ q cs
  else if c = '-' then cutUnsigned true q cs
  else if isDigit c then cutUnsigned false p (c :: cs)
  else ⟨.stray, q, cs⟩

def Lexeme.isBroken : Lexeme → Bool
  | broken _ _ => true
  | _ => false

/-- Enough turns are as many as there are characters: every token takes one at least. -/
def cutTokens (p : Position) : (turns : Nat) → List Char → List Token
  | 0, _ => []
  | _, [] => []
  | turns + 1, c :: cs =>
    if isSpace c then cutTokens (p.past c) turns cs
    else
      let cut := cutLexeme p c cs
      ⟨cut.lexeme, p, p.into c, cut.stop, c = '"'⟩ ::
        if cut.lexeme.isBroken then [] else cutTokens cut.stop turns cut.rest

structure Tokens where
  list : List Token
  stop : Position

def tokens (s : String) : Tokens :=
  ⟨cutTokens .start s.toList.length s.toList, Position.start.pastAll s.toList⟩

end CohortQuery.Json
