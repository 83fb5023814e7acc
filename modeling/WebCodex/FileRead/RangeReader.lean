import WebCodex.Foundation.Fallible
import WebCodex.Foundation.Utf8Decoding

/-!
One pass over the bytes of a file (`RangeScan.run`): every chunk is hashed, checked to be UTF-8
(`Utf8Validator`) and scanned for the selected lines (`scanByte`). Line numbers are natural
numbers here; the source saturates at the largest machine word, which no file reaches. A reader is
the list of what its calls give, and gives nothing any more behind it.
-/

namespace WebCodex.FileRead

open Foundation
open Foundation.Framing (Bytes)
open Foundation.Text (Str)
open Foundation.Utf8 (fromUtf8)

def maxRangeContentBytes : ℕ := 192 * 1024

structure EffectiveRange where
  (startLine limit : ℕ)

namespace EffectiveRange

def endLine (range : EffectiveRange) : ℕ := range.startLine + range.limit - 1

end EffectiveRange

/-- `ReadFileReason`, as far as the reader gives reasons. A `ReadFileError` carries nothing else. -/
inductive ReadFileReason where
  | notFound | permissionDenied | invalidUtf8 | rangeTooLarge | ioError

/-- `std::io::ErrorKind`, as far as kinds are told apart. -/
inductive ErrorKind where
  | notFound | permissionDenied | invalidData | other

def ioErrorToReason : ErrorKind → ReadFileReason
  | .notFound => .notFound
  | .permissionDenied => .permissionDenied
  | .invalidData => .invalidUtf8
  | .other => .ioError

structure FileReadRange where
  content : Str
  sha256 : String
  (totalLines startLine limit returnedLines : ℕ)
  endLine : Option ℕ
  hasMore : Bool
  nextStartLine : Option ℕ
  deriving DecidableEq

def countReturnedLines (content : Str) (totalLines startLine : ℕ) : ℕ :=
  if totalLines < startLine ∨ totalLines = 0 then 0
  else if content.isEmpty then if startLine ≤ totalLines then 1 else 0
  else (content.splitOn '\n').length

def FileReadRange.new (content : Str) (sha256 : String) (totalLines : ℕ) (range : EffectiveRange) :
    FileReadRange :=
  let returnedLines := countReturnedLines content totalLines range.startLine
  let endLine := if 0 < returnedLines then some (range.startLine + returnedLines - 1) else none
  let hasMore := endLine.any (decide <| · < totalLines)
  { content, sha256, totalLines
    startLine := range.startLine
    limit := range.limit
    returnedLines, endLine, hasMore
    nextStartLine := if hasMore then endLine.map (· + 1) else none }

/-- The bytes of a character that the chunks so far have not completed. -/
structure Utf8Validator where
  carry : Bytes := []

def utf8SequenceWidth (first : UInt8) : Option ℕ :=
  let n := first.toNat
  if 0xC2 ≤ n ∧ n ≤ 0xDF then some 2
  else if 0xE0 ≤ n ∧ n ≤ 0xEF then some 3
  else if 0xF0 ≤ n ∧ n ≤ 0xF4 then some 4
  else none

namespace Utf8Validator

/-- The second part of `validate_chunk`: what is behind the bytes that completed the carry. -/
def validateRemaining (remaining : Bytes) : Except ReadFileReason Utf8Validator :=
  match fromUtf8 remaining with
  | .ok _ => .ok {}
  | .error error =>
    if error.errorLen.isSome then .error .invalidUtf8
    else
      let tail := remaining.drop error.validUpTo
      if tail.isEmpty ∨ 3 < tail.length then .error .invalidUtf8 else .ok { carry := tail }

def validateChunk (validator : Utf8Validator) (bytes : Bytes) :
    Except ReadFileReason Utf8Validator :=
  match validator.carry with
  | [] => validateRemaining bytes
  | first :: _ => do
    let expected ← required (utf8SequenceWidth first) .invalidUtf8
    let taken := min (expected - validator.carry.length) bytes.length
    let carry := validator.carry ++ bytes.take taken
    if carry.length < expected then pure { carry }
    else do
      let _ ← (fromUtf8 (carry.take expected)).mapError fun _ ↦ ReadFileReason.invalidUtf8
      validateRemaining (bytes.drop taken)

def finish (validator : Utf8Validator) : Except ReadFileReason Unit :=
  ensure validator.carry.isEmpty .invalidUtf8

end Utf8Validator

structure RangeScan where
  content : Bytes := []
  sha256 : String := ""
  totalLines : ℕ := 0
  wroteAnyLine : Bool := false
  currentLineHasBytes : Bool := false
  selectedLineStarted : Bool := false
  pendingSelectedCr : Bool := false
  rangeTooLarge : Bool := false

def lf : UInt8 := 0x0A

def cr : UInt8 := 0x0D

namespace RangeScan

variable (scan : RangeScan)

def currentLineSelected (startLine endLine : ℕ) : Bool :=
  let line := scan.totalLines + 1
  startLine ≤ line && line ≤ endLine

def pushSelectedByte (byte : UInt8) (contentBudget : ℕ) : RangeScan :=
  if scan.rangeTooLarge then scan
  else if contentBudget ≤ scan.content.length
    then { scan with content := [], rangeTooLarge := true }
  else { scan with content := scan.content ++ [byte] }

def startSelectedLine (contentBudget : ℕ) : RangeScan :=
  if scan.selectedLineStarted then scan
  else
    let scan := if scan.wroteAnyLine then scan.pushSelectedByte lf contentBudget else scan
    { scan with wroteAnyLine := true, selectedLineStarted := true }

def flushPendingCr (contentBudget : ℕ) : RangeScan :=
  if scan.pendingSelectedCr then
    { scan.pushSelectedByte cr contentBudget with pendingSelectedCr := false }
  else scan

/-- A turn of the loop of `scan_chunk`. -/
def scanByte (startLine endLine contentBudget : ℕ) (scan : RangeScan) (byte : UInt8) : RangeScan :=
  let selected := scan.currentLineSelected startLine endLine
  if byte = lf then
    let scan := if selected then
      { scan.startSelectedLine contentBudget with pendingSelectedCr := false } else scan
    { scan with
      totalLines := scan.totalLines + 1
      currentLineHasBytes := false
      selectedLineStarted := false
      pendingSelectedCr := false }
  else
    let scan := { scan with currentLineHasBytes := true }
    if !selected then scan
    else
      let scan := scan.startSelectedLine contentBudget
      let scan := scan.flushPendingCr contentBudget
      if byte = cr then { scan with pendingSelectedCr := true }
      else scan.pushSelectedByte byte contentBudget

def scanChunk (bytes : Bytes) (startLine endLine contentBudget : ℕ) : RangeScan :=
  bytes.foldl (scanByte startLine endLine contentBudget) scan

/-- The loop over the chunks; the hasher has been given the bytes so far. -/
def readChunks (startLine endLine contentBudget : ℕ) :
    List (Except ErrorKind Bytes) → Bytes → Utf8Validator → RangeScan →
      Except ReadFileReason (Bytes × Utf8Validator × RangeScan)
  | [], hashed, validator, scan => .ok (hashed, validator, scan)
  | .error kind :: _, _, _, _ => .error (ioErrorToReason kind)
  | .ok [] :: _, hashed, validator, scan => .ok (hashed, validator, scan)
  | .ok (byte :: chunk) :: reads, hashed, validator, scan => do
    let validator ← validator.validateChunk (byte :: chunk)
    readChunks startLine endLine contentBudget reads (hashed ++ byte :: chunk) validator
      (scan.scanChunk (byte :: chunk) startLine endLine contentBudget)

/-- A last line without a line feed is a line too. -/
def endLastLine : RangeScan :=
  if scan.currentLineHasBytes then
    { scan with pendingSelectedCr := false, totalLines := scan.totalLines + 1 }
  else scan

def run (digest : Bytes → String) (scan : RangeScan) (reader : List (Except ErrorKind Bytes))
    (startLine endLine contentBudget : ℕ) : Except ReadFileReason RangeScan := do
  let (hashed, validator, scan) ← readChunks startLine endLine contentBudget reader [] {} scan
  validator.finish
  let scan := { scan.endLastLine with sha256 := digest hashed }
  ensure (!scan.rangeTooLarge) .rangeTooLarge
  pure scan

end RangeScan

def clampBudget (contentBudget : ℕ) : ℕ := min contentBudget maxRangeContentBytes

/-- `read_range_from_with_budget`, given the digest of SHA-256 in hexadecimal. -/
def readRangeFromWithBudget (digest : Bytes → String) (reader : List (Except ErrorKind Bytes))
    (range : EffectiveRange) (contentBudget : ℕ) : Except ReadFileReason FileReadRange := do
  let budget := clampBudget contentBudget
  let scan ← ({} : RangeScan).run digest reader range.startLine range.endLine budget
  let content ← (fromUtf8 scan.content).mapError fun _ ↦ ReadFileReason.invalidUtf8
  pure (FileReadRange.new content scan.sha256 scan.totalLines range)

end WebCodex.FileRead
