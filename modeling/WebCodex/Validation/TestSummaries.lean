import Mathlib.Algebra.BigOperators.Group.List.Basic
import Mathlib.Algebra.Order.Group.Nat
import Mathlib.Data.List.Infix
import WebCodex.Foundation.Layout

/-!
A run of `cargo test` prints one line `test result:` for each test binary. A line is cleaned of
terminal escapes and control characters before it is read; the count of a label is the first
number right before it. The counts of several lines are added within 64 bits.
-/

namespace WebCodex.Validation

open Foundation.Text

/-- Where `strip_ansi` stands in a text. -/
inductive AnsiState where
  | text
  | escape
  | controlSequence
  | systemCommand (previousEscape : Bool)
deriving DecidableEq

def stripAnsiFrom : AnsiState → Str → Str
  | _, [] => []
  | .text, c :: rest =>
    if c = '\u001b' then stripAnsiFrom .escape rest else c :: stripAnsiFrom .text rest
  | .escape, c :: rest =>
    if c = '[' then stripAnsiFrom .controlSequence rest
    else if c = ']' then stripAnsiFrom (.systemCommand false) rest
    else stripAnsiFrom .text rest
  | .controlSequence, c :: rest =>
    if '@' ≤ c ∧ c ≤ '~' then stripAnsiFrom .text rest else stripAnsiFrom .controlSequence rest
  | .systemCommand previousEscape, c :: rest =>
    if c = '\u0007' ∨ (previousEscape = true ∧ c = '\\') then stripAnsiFrom .text rest
    else stripAnsiFrom (.systemCommand (c == '\u001b')) rest

def stripAnsi (value : Str) : Str := stripAnsiFrom .text value

/-- One character of `sanitize_line`: what was kept, and whether a space is pending. -/
def sanitizeChar (state : Str × Bool) (c : Char) : Str × Bool :=
  if isControl c || isWhitespace c then (state.1, !state.1.isEmpty)
  else if state.2 then (state.1 ++ [' ', c], false)
  else (state.1 ++ [c], false)

def sanitizeLine (value : Str) : Str := ((stripAnsi value).foldl sanitizeChar ([], false)).1

/-- What `str::parse::<u64>` accepts: an optional plus sign and decimal digits of a 64-bit
number. -/
def parseU64 (text : Str) : Option UInt64 :=
  let digits := if text.head? = some '+' then text.tail else text
  let value := digits.foldl (fun n c ↦ 10 * n + (c.toNat - '0'.toNat)) 0
  if digits ≠ [] ∧ digits.all Char.isDigit ∧ value < 2 ^ 64 then some (UInt64.ofNat value) else none

structure CargoTestSummary where
  (passed failed ignored : Option UInt64)
deriving DecidableEq

/-- `count_before_label`: the first number right before the label. -/
def countBeforeLabel (label : Str) : List Str → Option UInt64
  | first :: second :: rest =>
    (if second = label then parseU64 first else none) <|> countBeforeLabel label (second :: rest)
  | _ => none

def summaryTokens (line : Str) : List Str :=
  (line.splitOnP fun c ↦ isWhitespace c || c == ';' || c == '.').filter fun token ↦ !token.isEmpty

def parseTestSummaryLine (line : Str) : Option CargoTestSummary :=
  let line := sanitizeLine line
  if "test result:".toList <:+: line then
    let tokens := summaryTokens line
    let summary : CargoTestSummary :=
      { passed := countBeforeLabel "passed".toList tokens
        failed := countBeforeLabel "failed".toList tokens
        ignored := countBeforeLabel "ignored".toList tokens }
    if summary.passed.isSome ∨ summary.failed.isSome ∨ summary.ignored.isSome then some summary
    else none
  else none

def maxU64 : ℕ := 2 ^ 64 - 1

def saturatingAdd (a b : UInt64) : UInt64 := UInt64.ofNat (min (a.toNat + b.toNat) maxU64)

/-- A count joins the total, which starts at zero. -/
def addCount (total : Option UInt64) : Option UInt64 → Option UInt64
  | none => total
  | some value => some (saturatingAdd (total.getD 0) value)

def addSummary (total summary : CargoTestSummary) : CargoTestSummary where
  passed := addCount total.passed summary.passed
  failed := addCount total.failed summary.failed
  ignored := addCount total.ignored summary.ignored

def emptySummary : CargoTestSummary := { passed := none, failed := none, ignored := none }

/-- The loop of `aggregate_cargo_test_summaries`: nothing until a summary was found. -/
def aggregateStep (total : Option CargoTestSummary) (line : Str) : Option CargoTestSummary :=
  match parseTestSummaryLine line with
  | none => total
  | some summary => some (addSummary (total.getD emptySummary) summary)

def aggregateCargoTestSummaries (lines : List Str) : Option CargoTestSummary :=
  lines.foldl aggregateStep none

theorem toNat_saturatingAdd (a b : UInt64) :
    (saturatingAdd a b).toNat = min (a.toNat + b.toNat) maxU64 := by
  have hlt : min (a.toNat + b.toNat) maxU64 < 2 ^ 64 := by
    unfold maxU64
    omega
  exact UInt64.toNat_ofNat_of_lt' hlt

end WebCodex.Validation
