import WebCodex.Foundation.Framing

/-!
A reader thread appends the output of a shell to a bounded buffer. After each command the shell
writes a marker with the token of the command, which the reader removes and reports
(`processOutputPending`). It holds back what may be the start of the marker
(`longestSuffixPrefix`). A call is a list of actions, each made under its own lock.
-/

namespace WebCodex.PersistentShell

open Foundation.Framing

abbrev Token := Bytes

def outputSyncMarker (magic : Bytes) (token : Token) : Bytes := magic ++ [0] ++ token ++ [0]

def window (haystack : Bytes) (position length : ℕ) : Bytes := (haystack.drop position).take length

def findBytes (haystack needle : Bytes) : Option ℕ :=
  if needle ≠ [] ∧ needle.length ≤ haystack.length then
    (List.range (haystack.length - needle.length + 1)).find? fun position ↦
      window haystack position needle.length == needle
  else none

/-- The downward search of `longest_suffix_prefix`. -/
def longestSuffixPrefixUpTo (value marker : Bytes) : ℕ → ℕ
  | 0 => 0
  | length + 1 =>
    if value.drop (value.length - (length + 1)) = marker.take (length + 1) then length + 1
    else longestSuffixPrefixUpTo value marker length

def longestSuffixPrefix (value marker : Bytes) : ℕ :=
  longestSuffixPrefixUpTo value marker (min value.length (marker.length - 1))

theorem outputSyncMarker_ne_nil (magic : Bytes) (token : Token) :
    outputSyncMarker magic token ≠ [] := by
  simp [outputSyncMarker]

/-- Where the needle was found it stands. -/
theorem exists_of_findBytes_eq_some {haystack needle : Bytes} {position : ℕ}
    (h : findBytes haystack needle = some position) :
    ∃ front back, haystack = front ++ needle ++ back ∧ front.length = position := by
  unfold findBytes at h
  split_ifs at h with hfits
  have hwindow : window haystack position needle.length = needle := by simpa using List.find?_some h
  have hposition := List.mem_range.mp (List.mem_of_find?_eq_some h)
  refine ⟨haystack.take position, haystack.drop (position + needle.length), ?_, ?_⟩
  · rw [window] at hwindow
    conv_lhs => rw [← List.take_append_drop position haystack,
      ← List.take_append_drop needle.length (haystack.drop position), hwindow, List.drop_drop]
    rw [List.append_assoc]
  · rw [List.length_take]
    omega

/-- Where the needle stands it is found, there or before. -/
theorem findBytes_isSome (front back : Bytes) {needle : Bytes} (hneedle : needle ≠ []) :
    (findBytes (front ++ needle ++ back) needle).isSome := by
  have hfits : needle ≠ [] ∧ needle.length ≤ (front ++ needle ++ back).length := by
    refine ⟨hneedle, ?_⟩
    simp only [List.length_append]
    omega
  rw [findBytes, if_pos hfits, List.find?_isSome]
  refine ⟨front.length, ?_, ?_⟩
  · rw [List.mem_range]
    simp only [List.length_append]
    omega
  · rw [window, List.append_assoc, List.drop_left, List.take_left]
    exact beq_self_eq_true _

/-- The downward search does not pass over an overlap. -/
theorem le_longestSuffixPrefixUpTo {value marker : Bytes} {length maximum : ℕ}
    (hle : length ≤ maximum) (h : value.drop (value.length - length) = marker.take length) :
    length ≤ longestSuffixPrefixUpTo value marker maximum := by
  induction maximum with
  | zero => exact hle
  | succ _ ih =>
    rw [longestSuffixPrefixUpTo]
    split_ifs with hmatch
    · exact hle
    · refine ih (Nat.le_of_lt_succ (lt_of_le_of_ne hle ?_))
      rintro rfl
      exact hmatch h

/-- What stands at the end of a text and starts the marker is held back. -/
theorem length_le_longestSuffixPrefix (front : Bytes) {start marker : Bytes}
    (hstart : start <+: marker) (hproper : start.length < marker.length) :
    start.length ≤ longestSuffixPrefix (front ++ start) marker := by
  refine le_longestSuffixPrefixUpTo ?_ ?_
  · rw [List.length_append]
    omega
  · rw [List.length_append, Nat.add_sub_cancel, List.drop_left]
    exact List.prefix_iff_eq_take.mp hstart

structure Reader where
  pending : Bytes := []
  lastSyncedToken : Option Token := none
  deriving DecidableEq

/-- What the reader does to the buffer and to the channel of the tokens. -/
inductive Action
  | append (bytes : Bytes)
  | send (token : Token)

def processOutputPending (magic : Bytes) (expected : Option Token) (reader : Reader) :
    Reader × List Action :=
  match expected with
  | none => ({ reader with pending := [] }, [.append reader.pending])
  | some token =>
    if reader.lastSyncedToken = some token then
      ({ reader with pending := [] }, [.append reader.pending])
    else
      let marker := outputSyncMarker magic token
      match findBytes reader.pending marker with
      | some position =>
        ({ pending := [], lastSyncedToken := some token },
          [.append (reader.pending.take position), .send token,
            .append (reader.pending.drop (position + marker.length))])
      | none =>
        let retained := longestSuffixPrefix reader.pending marker
        let emit := reader.pending.length - retained
        if 0 < emit then
          ({ reader with pending := reader.pending.drop emit },
            [.append (reader.pending.take emit)])
        else (reader, [])

/-- A chunk that was read, and the token that is expected when it is processed. -/
structure Read where
  expected : Option Token
  chunk : Bytes

def Reader.read (magic : Bytes) (read : Read) (reader : Reader) : Reader × List Action :=
  processOutputPending magic read.expected { reader with pending := reader.pending ++ read.chunk }

def Reader.readAll (magic : Bytes) : List Read → Reader → Reader × List Action
  | [], reader => (reader, [])
  | read :: rest, reader =>
    let turn := reader.read magic read
    let later := turn.1.readAll magic rest
    (later.1, turn.2 ++ later.2)

/-- The bytes that are appended to the buffer. -/
def appended (actions : List Action) : Bytes := actions.flatMap fun action ↦
    match action with
    | .append bytes => bytes
    | .send _ => []

def sent (actions : List Action) : List Token := actions.filterMap fun action ↦
    match action with
    | .append _ => none
    | .send token => some token

@[simp] theorem appended_append (first second : List Action) :
    appended (first ++ second) = appended first ++ appended second := List.flatMap_append

@[simp] theorem sent_append (first second : List Action) :
    sent (first ++ second) = sent first ++ sent second := List.filterMap_append

@[simp] theorem appended_send (token : Token) (actions : List Action) :
    appended (.send token :: actions) = appended actions := rfl

@[simp] theorem sent_send (token : Token) (actions : List Action) :
    sent (.send token :: actions) = token :: sent actions := rfl

theorem readAll_append (magic : Bytes) (first second : List Read) (reader : Reader) :
    reader.readAll magic (first ++ second) =
        (((reader.readAll magic first).1.readAll magic second).1, (reader.readAll magic first).2 ++
          ((reader.readAll magic first).1.readAll magic second).2) := by
  induction first generalizing reader with
  | nil => rfl
  | cons _ _ ih => simp only [List.cons_append, Reader.readAll, ih, List.append_assoc]

end WebCodex.PersistentShell
