import Mathlib.Data.List.Induction
import WebCodex.PersistentShell.Markers

/-!
The buffer of a stream keeps the end of what was appended to it and counts what it has dropped
(`BoundedBuffer.Holds`). Its cursor is the number of bytes that were appended, so the bytes behind a
cursor are those that were appended after it was taken (`snapshotSince_cursor`).
-/

namespace WebCodex.PersistentShell

open Foundation.Framing

def minOutputBytes : ℕ := 1024

/-- `u64::saturating_add`. -/
def saturatingAddU64 (a b : ℕ) : ℕ := min (2 ^ 64 - 1) (a + b)

structure BoundedBuffer where
  bytes : Bytes
  (firstOffset nextOffset maxBytes : ℕ)

/-- The loop that drops bytes from the front, and the offset of the first byte that is left. -/
def dropFront (maxBytes : ℕ) : Bytes → ℕ → Bytes × ℕ
  | [], firstOffset => ([], firstOffset)
  | byte :: rest, firstOffset =>
    if maxBytes < rest.length + 1 then dropFront maxBytes rest (saturatingAddU64 firstOffset 1)
    else (byte :: rest, firstOffset)

namespace BoundedBuffer

def new (maxBytes : ℕ) : BoundedBuffer := ⟨[], 0, 0, max maxBytes minOutputBytes⟩

def append (bytes : Bytes) (buffer : BoundedBuffer) : BoundedBuffer :=
  let kept := dropFront buffer.maxBytes (buffer.bytes ++ bytes) buffer.firstOffset
  { bytes := kept.1, firstOffset := kept.2, maxBytes := buffer.maxBytes,
    nextOffset := saturatingAddU64 buffer.nextOffset bytes.length }

def setMaxBytes (maxBytes : ℕ) (buffer : BoundedBuffer) : BoundedBuffer :=
  let kept := dropFront (max maxBytes minOutputBytes) buffer.bytes buffer.firstOffset
  { bytes := kept.1, firstOffset := kept.2, maxBytes := max maxBytes minOutputBytes,
    nextOffset := buffer.nextOffset }

def cursor (buffer : BoundedBuffer) : ℕ := buffer.nextOffset

def snapshotSince (fromUtf8Lossy : Bytes → String) (requestedStart : ℕ) (buffer : BoundedBuffer) :
    String × Bool :=
  let start := min (max requestedStart buffer.firstOffset) buffer.nextOffset
  (fromUtf8Lossy (buffer.bytes.drop (start - buffer.firstOffset)),
    decide (requestedStart < buffer.firstOffset))

end BoundedBuffer

inductive BufferOp
  | append (bytes : Bytes)
  | setMaxBytes (maxBytes : ℕ)

def BufferOp.apply (buffer : BoundedBuffer) : BufferOp → BoundedBuffer
  | append bytes => buffer.append bytes
  | setMaxBytes maxBytes => buffer.setMaxBytes maxBytes

def BoundedBuffer.after (maxBytes : ℕ) (ops : List BufferOp) : BoundedBuffer :=
  ops.foldl BufferOp.apply (.new maxBytes)

/-- The bytes that a number of operations append. -/
def written (ops : List BufferOp) : Bytes := ops.flatMap fun op ↦
    match op with
    | .append bytes => bytes
    | .setMaxBytes _ => []

@[simp] theorem written_append (first second : List BufferOp) :
    written (first ++ second) = written first ++ written second := List.flatMap_append

theorem dropFront_eq (maxBytes : ℕ) (bytes : Bytes) (firstOffset : ℕ)
    (hbound : firstOffset + bytes.length < 2 ^ 64) :
    dropFront maxBytes bytes firstOffset =
      (bytes.drop (bytes.length - maxBytes), firstOffset + (bytes.length - maxBytes)) := by
  induction bytes generalizing firstOffset with
  | nil => simp [dropFront]
  | cons _ rest ih =>
    rw [List.length_cons] at hbound
    have hnext : saturatingAddU64 firstOffset 1 = firstOffset + 1 := by
      unfold saturatingAddU64
      omega
    rw [dropFront]
    split_ifs with hlong
    · have hcount : rest.length + 1 - maxBytes = rest.length - maxBytes + 1 := by omega
      rw [hnext, ih (firstOffset + 1) (by omega), List.length_cons, hcount, List.drop_succ_cons]
      congr 1
      omega
    · have hcount : rest.length + 1 - maxBytes = 0 := by omega
      rw [List.length_cons, hcount, List.drop_zero, add_zero]

/-- The buffer holds the end of what was appended, and its offsets count what was dropped and what
was appended. -/
structure BoundedBuffer.Holds (total : Bytes) (buffer : BoundedBuffer) : Prop where
  first : buffer.firstOffset ≤ total.length
  bytes : buffer.bytes = total.drop buffer.firstOffset
  next : buffer.nextOffset = total.length

namespace BoundedBuffer.Holds

variable {total more : Bytes} {buffer : BoundedBuffer}

theorem length_bytes (h : buffer.Holds total) :
    buffer.firstOffset + buffer.bytes.length = total.length := by
  rw [h.bytes, List.length_drop]
  have hfirst := h.first
  omega

theorem append (h : buffer.Holds total) (hbound : (total ++ more).length < 2 ^ 64) :
    (buffer.append more).Holds (total ++ more) := by
  have hlength := h.length_bytes
  rw [List.length_append] at hbound
  have hkept := dropFront_eq buffer.maxBytes (buffer.bytes ++ more) buffer.firstOffset
    (by rw [List.length_append]; omega)
  have hbytes : buffer.bytes ++ more = (total ++ more).drop buffer.firstOffset := by
    rw [h.bytes, List.drop_append_of_le_length h.first]
  refine ⟨?_, ?_, ?_⟩
  · rw [BoundedBuffer.append, hkept, List.length_append, List.length_append]
    dsimp only
    omega
  · rw [BoundedBuffer.append, hkept]
    rw [hbytes, List.drop_drop]
  · rw [BoundedBuffer.append, h.next, List.length_append, saturatingAddU64]
    dsimp only
    omega

theorem setMaxBytes (h : buffer.Holds total) (hbound : total.length < 2 ^ 64) (maxBytes : ℕ) :
    (buffer.setMaxBytes maxBytes).Holds total := by
  have hlength := h.length_bytes
  have hkept := dropFront_eq (max maxBytes minOutputBytes) buffer.bytes buffer.firstOffset
    (by omega)
  refine ⟨?_, ?_, h.next⟩
  · rw [BoundedBuffer.setMaxBytes, hkept]
    dsimp only
    omega
  · rw [BoundedBuffer.setMaxBytes, hkept]
    conv_lhs => rw [h.bytes, List.drop_drop]
    rw [h.bytes]

theorem foldl (h : buffer.Holds total) (ops : List BufferOp)
    (hbound : (total ++ written ops).length < 2 ^ 64) :
    (ops.foldl BufferOp.apply buffer).Holds (total ++ written ops) := by
  induction ops generalizing buffer total with
  | nil => simpa [written] using h
  | cons op rest ih =>
    cases op with
    | append bytes =>
      have hsplit : total ++ written (.append bytes :: rest) = total ++ bytes ++ written rest := by
        simp [written]
      rw [hsplit] at hbound ⊢
      refine ih (h.append ?_) hbound
      rw [List.length_append] at hbound
      omega
    | setMaxBytes maxBytes =>
      have hsplit : total ++ written (.setMaxBytes maxBytes :: rest) = total ++ written rest := by
        simp [written]
      refine ih (h.setMaxBytes ?_ maxBytes) hbound
      rw [List.length_append] at hbound
      omega

end BoundedBuffer.Holds

theorem holds_after (maxBytes : ℕ) (ops : List BufferOp) (hbound : (written ops).length < 2 ^ 64) :
    (BoundedBuffer.after maxBytes ops).Holds (written ops) := by
  have hnew : (BoundedBuffer.new maxBytes).Holds [] := ⟨le_rfl, rfl, rfl⟩
  simpa [BoundedBuffer.after] using hnew.foldl ops (by simpa using hbound)

theorem after_append (maxBytes : ℕ) (ops : List BufferOp) (op : BufferOp) :
    BoundedBuffer.after maxBytes (ops ++ [op]) = op.apply (BoundedBuffer.after maxBytes ops) := by
  simp [BoundedBuffer.after]

/-- An operation drops what is too much under the bound that it leaves. -/
theorem BoundedBuffer.Holds.firstOffset_apply {total : Bytes} {buffer : BoundedBuffer}
    (h : buffer.Holds total) (op : BufferOp) (hbound : (total ++ written [op]).length < 2 ^ 64) :
    (op.apply buffer).firstOffset =
      max buffer.firstOffset ((total ++ written [op]).length - (op.apply buffer).maxBytes) := by
  have hlength := h.length_bytes
  cases op with
  | append bytes =>
    have hsame : written [.append bytes] = bytes := by simp [written]
    rw [hsame, List.length_append] at hbound ⊢
    have hkept := dropFront_eq buffer.maxBytes (buffer.bytes ++ bytes) buffer.firstOffset
      (by rw [List.length_append]; omega)
    rw [BufferOp.apply, BoundedBuffer.append, hkept, List.length_append]
    dsimp only
    omega
  | setMaxBytes maxBytes =>
    have hnone : written [.setMaxBytes maxBytes] = [] := rfl
    rw [hnone, List.append_nil] at hbound ⊢
    have hkept := dropFront_eq (max maxBytes minOutputBytes) buffer.bytes buffer.firstOffset
      (by omega)
    rw [BufferOp.apply, BoundedBuffer.setMaxBytes, hkept]
    dsimp only
    omega

/-- A number of bytes is dropped by operations when it is the least that leaves, after each of them,
no more than the bound allowed then. -/
structure DroppedBy (maxBytes : ℕ) (ops : List BufferOp) (dropped : ℕ) : Prop where
  within : ∀ front, front <+: ops →
    (written front).length ≤ dropped + (BoundedBuffer.after maxBytes front).maxBytes
  least : dropped = 0 ∨ ∃ front, front <+: ops ∧
    (written front).length = dropped + (BoundedBuffer.after maxBytes front).maxBytes

theorem droppedBy_after (maxBytes : ℕ) (ops : List BufferOp)
    (hbound : (written ops).length < 2 ^ 64) :
    DroppedBy maxBytes ops (BoundedBuffer.after maxBytes ops).firstOffset := by
  induction ops using List.reverseRecOn with
  | nil => exact ⟨fun front hfront ↦ by simp [List.prefix_nil.mp hfront, written], .inl rfl⟩
  | append_singleton ops op ih =>
    have hbefore : (written ops).length < 2 ^ 64 := by
      rw [written_append, List.length_append] at hbound
      omega
    obtain ⟨hwithin, hleast⟩ := ih hbefore
    have hfirst := (holds_after maxBytes ops hbefore).firstOffset_apply op
      (by rwa [← written_append])
    rw [← after_append, ← written_append] at hfirst
    refine ⟨fun front hfront ↦ ?_, ?_⟩
    · rcases List.prefix_concat_iff.mp hfront with rfl | hshort
      · omega
      · have hfront := hwithin front hshort
        omega
    · rcases max_choice (BoundedBuffer.after maxBytes ops).firstOffset
        ((written (ops ++ [op])).length - (BoundedBuffer.after maxBytes (ops ++ [op])).maxBytes)
        with hold | hnew
      · rw [hfirst, hold]
        exact hleast.imp_right fun ⟨front, hfront, hlength⟩ ↦
          ⟨front, hfront.trans (List.prefix_append _ _), hlength⟩
      · by_cases hzero : (BoundedBuffer.after maxBytes (ops ++ [op])).firstOffset = 0
        · exact .inl hzero
        · exact .inr ⟨_, List.prefix_rfl, by omega⟩

/-- A snapshot since a cursor: what was appended after the cursor was taken, less what was dropped
of that. -/
theorem snapshotSince_cursor (fromUtf8Lossy : Bytes → String) (maxBytes : ℕ)
    (earlier later : List BufferOp) (hbound : (written (earlier ++ later)).length < 2 ^ 64) :
    ∃ dropped, DroppedBy maxBytes (earlier ++ later) dropped ∧
      (BoundedBuffer.after maxBytes (earlier ++ later)).bytes =
        (written (earlier ++ later)).drop dropped ∧
      (BoundedBuffer.after maxBytes (earlier ++ later)).snapshotSince fromUtf8Lossy
          (BoundedBuffer.after maxBytes earlier).cursor =
        (fromUtf8Lossy ((written later).drop (dropped - (written earlier).length)),
          decide ((written earlier).length < dropped)) := by
  have hlater := holds_after maxBytes (earlier ++ later) hbound
  have hdropped := droppedBy_after maxBytes (earlier ++ later) hbound
  have hearlier := holds_after maxBytes earlier (by
    rw [written_append, List.length_append] at hbound
    omega)
  generalize BoundedBuffer.after maxBytes (earlier ++ later) = buffer at hlater hdropped ⊢
  generalize BoundedBuffer.after maxBytes earlier = before at hearlier ⊢
  refine ⟨buffer.firstOffset, hdropped, hlater.bytes, ?_⟩
  rw [BoundedBuffer.snapshotSince, BoundedBuffer.cursor, hearlier.next, hlater.next, hlater.bytes,
    List.drop_drop, written_append, List.length_append]
  have hposition : buffer.firstOffset + (min (max (written earlier).length buffer.firstOffset)
      ((written earlier).length + (written later).length) - buffer.firstOffset) =
      (written earlier).length + (buffer.firstOffset - (written earlier).length) := by
    omega
  rw [hposition, ← List.drop_drop, List.drop_left]

/-- The output of each command is attributed to it, whatever the chunks. Assumes: the chunks make up
the stream of the commands and none is empty; the tokens are distinct; the token of a command is
expected when bytes of its segment are read; and its marker stands nowhere else in the stream. Then
the reader appends the stream without the markers, in its order; it reports each token once, when
the bytes before the marker were appended; and a snapshot since a cursor gives the bytes that were
appended after it and are retained, marked as truncated when some of them were dropped, also when
the bound of the buffer is changed in between. No more is dropped than the bounds on the way
require. -/
theorem output_is_attributed (fromUtf8Lossy : Bytes → String) (magic : Bytes)
    (commands : List Command) (reads : List Read) (hchunks : ∀ read ∈ reads, read.chunk ≠ [])
    (hreceived : received reads = stream magic commands)
    (htokens : (commands.map Command.token).Nodup) (hexpects : Expects magic commands reads)
    (hunique : MarkersUnique magic commands) :
    (∃ last actions, Reader.readAll magic reads {} = (⟨[], last⟩, actions) ∧
      appended actions = outputs commands ∧
      sent actions = commands.map Command.token ∧
      ∀ before command after, commands = before ++ command :: after →
        ∃ earlier later, actions = earlier ++ .send command.token :: later ∧
          appended earlier = outputs (before ++ [command])) ∧
    ∀ (maxBytes : ℕ) (earlier later : List BufferOp),
      (written (earlier ++ later)).length < 2 ^ 64 →
      ∃ dropped, DroppedBy maxBytes (earlier ++ later) dropped ∧
        (BoundedBuffer.after maxBytes (earlier ++ later)).bytes =
          (written (earlier ++ later)).drop dropped ∧
        (BoundedBuffer.after maxBytes (earlier ++ later)).snapshotSince fromUtf8Lossy
            (BoundedBuffer.after maxBytes earlier).cursor =
          (fromUtf8Lossy ((written later).drop (dropped - (written earlier).length)),
            decide ((written earlier).length < dropped)) := by
  refine ⟨?_, fun maxBytes earlier later hbound ↦
    snapshotSince_cursor fromUtf8Lossy maxBytes earlier later hbound⟩
  have hnew : ∀ command ∈ commands, (none : Option Token) ≠ some command.token :=
    fun command _ ↦ (Option.some_ne_none command.token).symm
  exact @readAll_commands magic commands reads {} hexpects hchunks hreceived htokens hunique
    hnew rfl

/-- Two commands, the first of which ends with the start of a marker. -/
def sampleCommands : List Command := [⟨[65], [1, 77, 0]⟩, ⟨[66], []⟩]

def sampleReads : List Read :=
  [⟨some [65], [1, 77, 0, 77]⟩, ⟨some [65], [0, 65, 0]⟩, ⟨some [66], [77, 0]⟩, ⟨some [66], [66, 0]⟩]

/-- `String::from_utf8_lossy`, on ASCII. -/
def asciiText (bytes : Bytes) : String :=
  String.ofList (bytes.map fun byte ↦ Char.ofNat byte.toNat)

/-- The output of the first command ends with the start of a marker, and is told apart all the same.
A snapshot from the cursor behind it shows the output of the second command and drops nothing. -/
theorem sample_output_is_attributed :
    (∃ last actions, Reader.readAll [77] sampleReads {} = (⟨[], last⟩, actions) ∧
      appended actions = [1, 77, 0] ∧ sent actions = [[65], [66]]) ∧
    (BoundedBuffer.after 0 [.append [1, 77, 0], .append [66]]).snapshotSince asciiText
      (BoundedBuffer.after 0 [.append [1, 77, 0]]).cursor = ("B", false) := by
  obtain ⟨⟨last, actions, hrun, happended, hsent, -⟩, hbuffer⟩ :=
    output_is_attributed asciiText [77] sampleCommands sampleReads (by decide) (by decide)
      (by decide) (by decide +kernel) (by decide +kernel)
  obtain ⟨dropped, hdropped, -, hsnapshot⟩ := hbuffer 0 [.append [1, 77, 0]] [.append [66]]
    (by decide)
  have hnone : dropped = 0 := by
    refine hdropped.least.resolve_right ?_
    rintro ⟨front, hfront, _⟩
    have hshort := hfront.length_le
    have hall : ∀ length ≤ 2, let ops : List BufferOp := [.append [1, 77, 0]] ++ [.append [66]]
        (written (ops.take length)).length <
            (BoundedBuffer.after 0 (ops.take length)).maxBytes := by
      decide
    have hfew := hall front.length hshort
    dsimp only at hfew
    rw [← List.prefix_iff_eq_take.mp hfront] at hfew
    omega
  subst hnone
  exact ⟨⟨last, actions, hrun, happended, hsent⟩, hsnapshot⟩

end WebCodex.PersistentShell
