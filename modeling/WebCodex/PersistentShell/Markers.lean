import WebCodex.PersistentShell.Output

/-!
The stream of a shell is, for each command, the bytes that it writes and then its marker (`stream`).
Its chunks are read with the token of the command expected as long as bytes of the command or of its
marker are among them (`Expects`), and each marker stands in the stream at its own place only
(`MarkersUnique`).
-/

namespace WebCodex.PersistentShell

open Foundation.Framing

/-! ### Commands and chunks -/

structure Command where
  token : Token
  output : Bytes

/-- What is written to the stream for a command. -/
def Command.segment (magic : Bytes) (command : Command) : Bytes :=
  command.output ++ outputSyncMarker magic command.token

def stream (magic : Bytes) (commands : List Command) : Bytes := commands.flatMap
    (Command.segment magic)

def received (reads : List Read) : Bytes := reads.flatMap Read.chunk

/-- The token of a command is expected when a chunk is read that has bytes of its segment. -/
def Expects (magic : Bytes) (commands : List Command) (reads : List Read) : Prop :=
  ∀ (i : ℕ) (hi : i < reads.length) (j : ℕ) (hj : j < commands.length),
    (received (reads.take i)).length < (stream magic (commands.take (j + 1))).length →
    (stream magic (commands.take j)).length < (received (reads.take (i + 1))).length →
    reads[i].expected = some commands[j].token

/-- The marker of a command stands behind its output and nowhere else in the stream. -/
def MarkersUnique (magic : Bytes) (commands : List Command) : Prop :=
  ∀ (j : ℕ) (hj : j < commands.length), ∀ position ≤ (stream magic commands).length,
    outputSyncMarker magic commands[j].token <+: (stream magic commands).drop position →
    position = (stream magic (commands.take j)).length + commands[j].output.length

instance (magic : Bytes) (commands : List Command) (reads : List Read) :
    Decidable (Expects magic commands reads) := by unfold Expects; infer_instance

instance (magic : Bytes) (commands : List Command) : Decidable (MarkersUnique magic commands) := by
  unfold MarkersUnique; infer_instance

variable {magic : Bytes} {commands : List Command} {reads : List Read} {token : Token}
  {output emitted : Bytes} {reader : Reader}

@[simp] theorem stream_append (first second : List Command) :
    stream magic (first ++ second) = stream magic first ++ stream magic second :=
      List.flatMap_append

@[simp] theorem stream_cons (command : Command) (rest : List Command) :
    stream magic (command :: rest) = command.segment magic ++ stream magic rest := List.flatMap_cons

@[simp] theorem received_append (first second : List Read) :
    received (first ++ second) = received first ++ received second := List.flatMap_append

@[simp] theorem received_cons (read : Read) (rest : List Read) :
    received (read :: rest) = read.chunk ++ received rest := List.flatMap_cons

theorem received_ne_nil (hchunks : ∀ read ∈ reads, read.chunk ≠ []) (hreads : reads ≠ []) :
    received reads ≠ [] := by
  obtain ⟨read, _, rfl⟩ := List.exists_cons_of_ne_nil hreads
  exact List.append_ne_nil_of_left_ne_nil (hchunks read List.mem_cons_self) _

/-- A token that is not found yet: the end of what was read is held back. -/
theorem processOutputPending_of_none (reader : Reader) (hnew : reader.lastSyncedToken ≠ some token)
    (hnone : findBytes reader.pending (outputSyncMarker magic token) = none) :
    ∃ emit actions, emit = reader.pending.length -
        longestSuffixPrefix reader.pending (outputSyncMarker magic token) ∧
      processOutputPending magic (some token) reader =
        ({ reader with pending := reader.pending.drop emit }, actions) ∧
      appended actions = reader.pending.take emit ∧ sent actions = [] := by
  simp only [processOutputPending, if_neg hnew, hnone]
  split_ifs with hemit
  · exact ⟨_, _, rfl, rfl, by simp [appended], rfl⟩
  · have hzero : reader.pending.length -
        longestSuffixPrefix reader.pending (outputSyncMarker magic token) = 0 := by omega
    exact ⟨_, _, rfl, by rw [hzero, List.drop_zero], by rw [hzero]; rfl, rfl⟩

/-- A token that is found: everything before its marker is appended, and then it is reported. -/
theorem processOutputPending_of_some (reader : Reader) {front back : Bytes} {position : ℕ}
    (hnew : reader.lastSyncedToken ≠ some token)
    (hsome : findBytes reader.pending (outputSyncMarker magic token) = some position)
    (hpending : reader.pending = front ++ outputSyncMarker magic token ++ back)
    (hfront : front.length = position) :
    processOutputPending magic (some token) reader =
      (⟨[], some token⟩, [.append front, .send token, .append back]) := by
  simp only [processOutputPending, if_neg hnew, hsome]
  rw [hpending, ← hfront, ← List.length_append, List.drop_left, List.append_assoc, List.take_left]

/-- All reads of one command, from a state in which some of its bytes were appended and some are
held back. -/
theorem readAll_segment (hexpected : ∀ read ∈ reads, read.expected = some token)
    (hchunks : ∀ read ∈ reads, read.chunk ≠ []) (hreads : reads ≠ [])
    (hnew : reader.lastSyncedToken ≠ some token)
    (hread : emitted ++ reader.pending ++ received reads = output ++ outputSyncMarker magic token)
    (hemitted : emitted.length ≤ output.length)
    (hunique : ∀ front back, output ++ outputSyncMarker magic token =
      front ++ outputSyncMarker magic token ++ back → front.length = output.length) :
    ∃ before after, reader.readAll magic reads =
      (⟨[], some token⟩, before ++ .send token :: after) ∧
      emitted ++ appended before = output ∧ appended after = [] ∧ sent before = [] ∧
        sent after = [] := by
  induction reads generalizing reader emitted with
  | nil => exact absurd rfl hreads
  | cons read rest ih =>
    have hexpects := hexpected read List.mem_cons_self
    rw [received_cons, ← List.append_assoc, List.append_assoc emitted] at hread
    simp only [Reader.readAll, Reader.read, hexpects]
    generalize hpending : reader.pending ++ read.chunk = pending at hread ⊢
    obtain ⟨remaining, rfl⟩ : emitted <+: output := by
      refine List.prefix_of_prefix_length_le ⟨pending ++ received rest, ?_⟩
        (List.prefix_append output (outputSyncMarker magic token)) hemitted
      rw [← List.append_assoc]
      exact hread
    rw [List.append_assoc, List.append_assoc, List.append_cancel_left_eq] at hread
    by_cases hrest : rest = []
    · -- The last chunk ends the marker.
      subst hrest
      rw [show received [] = [] from rfl, List.append_nil] at hread
      obtain ⟨position, hsome⟩ := Option.isSome_iff_exists.mp
        (findBytes_isSome remaining [] (outputSyncMarker_ne_nil magic token))
      rw [List.append_nil, ← hread] at hsome
      obtain ⟨front, back, hfound, hfront⟩ := exists_of_findBytes_eq_some hsome
      have hplace : (emitted ++ front).length = (emitted ++ remaining).length := by
        refine hunique _ back ?_
        rw [List.append_assoc, ← hread, hfound]
        simp
      have hlength : front.length = remaining.length := by
        rw [List.length_append, List.length_append] at hplace
        omega
      have hpieces := hfound
      rw [hread, List.append_assoc] at hpieces
      obtain ⟨hremaining, hback⟩ := List.append_inj hpieces hlength.symm
      refine ⟨[.append front], [.append back], ?_, ?_, ?_, rfl, rfl⟩
      · rw [processOutputPending_of_some { reader with pending := pending } hnew hsome
          hfound hfront]
        rfl
      · rw [hremaining]
        simp [appended]
      · rw [List.self_eq_append_right.mp hback]
        rfl
    · -- The marker does not end yet, so none is found.
      have hlater : received rest ≠ [] :=
        received_ne_nil (fun later hlater ↦ hchunks later (List.mem_cons_of_mem _ hlater)) hrest
      have hnone : findBytes pending (outputSyncMarker magic token) = none := by
        by_contra hsome
        obtain ⟨position, hsome⟩ := Option.ne_none_iff_exists'.mp hsome
        obtain ⟨front, back, hfound, -⟩ := exists_of_findBytes_eq_some hsome
        have hplace : (emitted ++ front).length = (emitted ++ remaining).length := by
          refine hunique _ (back ++ received rest) ?_
          rw [List.append_assoc, ← hread, hfound]
          simp
        have hlengths := congrArg List.length hread
        rw [hfound] at hlengths
        simp only [List.length_append] at hplace hlengths
        exact hlater (List.eq_nil_of_length_eq_zero (by omega))
      obtain ⟨emit, actions, hemit, hturn, happended, hsent⟩ :=
        processOutputPending_of_none { reader with pending := pending } hnew hnone
      -- What is appended of the chunk is output, for the start of a marker would be held back.
      have hbound : (emitted ++ pending.take emit).length ≤ (emitted ++ remaining).length := by
        by_cases hshort : pending.length ≤ remaining.length
        · rw [List.length_append, List.length_append, List.length_take]
          omega
        · obtain ⟨start, rfl⟩ : remaining <+: pending := List.prefix_of_prefix_length_le
            (List.prefix_append remaining _) ⟨received rest, hread⟩ (Nat.le_of_not_le hshort)
          rw [List.append_assoc, List.append_cancel_left_eq] at hread
          have hproper : start.length < (outputSyncMarker magic token).length := by
            rw [← hread, List.length_append]
            have hpositive := List.length_pos_of_ne_nil hlater
            omega
          have hheld := length_le_longestSuffixPrefix remaining ⟨_, hread⟩ hproper
          simp only [List.length_append] at hemit
          rw [List.length_append, List.length_append, List.length_take]
          omega
      obtain ⟨before, after, hrun, hbefore, hafter, hsentBefore, hsentAfter⟩ :=
        @ih (emitted ++ pending.take emit) { reader with pending := pending.drop emit }
          (fun later hlater ↦ hexpected later (List.mem_cons_of_mem _ hlater))
          (fun later hlater ↦ hchunks later (List.mem_cons_of_mem _ hlater)) hrest hnew
          (by
            simp only [List.append_assoc]
            rw [← List.append_assoc (pending.take emit), List.take_append_drop, hread]) hbound
      refine ⟨actions ++ before, after, ?_, ?_, hafter, ?_, hsentAfter⟩
      · rw [hturn, hrun, List.append_assoc]
      · rw [appended_append, happended, ← List.append_assoc]
        exact hbefore
      · rw [sent_append, hsent, hsentBefore]
        rfl

/-! ### The reads of all commands -/

variable {command : Command}

/-- `Expects`, for a read and a command that stand somewhere in their lists. -/
theorem Expects.of_split (h : Expects magic commands reads) {earlier later : List Read}
    {read : Read}
    {before after : List Command} (hreads : reads = earlier ++ read :: later)
    (hcommands : commands = before ++ command :: after)
    (hstarts : (received earlier).length < (stream magic before).length +
      (command.segment magic).length)
    (hends : (stream magic before).length < (received earlier).length + read.chunk.length) :
    read.expected = some command.token := by
  subst hreads hcommands
  have hexpected := h earlier.length (by simp) before.length (by simp)
  simp only [List.take_left, List.take_length_add_append, List.getElem_append_right (le_refl _),
    Nat.sub_self, List.getElem_cons_zero] at hexpected
  refine hexpected ?_ ?_
  · simpa [stream] using hstarts
  · simpa [received] using hends

variable {rest : List Command}

/-- Positions do not matter when as many bytes were read as were written. -/
theorem Expects.of_append {group others : List Read}
    (h : Expects magic (command :: rest) (group ++ others))
    (hgroup : received group = command.segment magic) : Expects magic rest others := by
  intro i hi j hj hstarts hends
  have hreads : group ++ others = (group ++ others.take i) ++ others[i] :: others.drop (i + 1) := by
    simp
  have hcommands : command :: rest = (command :: rest.take j) ++ rest[j] :: rest.drop (j + 1) := by
    simp
  rw [List.take_succ_eq_append_getElem hj, stream_append, List.length_append] at hstarts
  rw [List.take_succ_eq_append_getElem hi, received_append, List.length_append] at hends
  refine h.of_split hreads hcommands ?_ ?_
  · rw [received_append, stream_cons, hgroup, List.length_append, List.length_append]
    simp [stream] at hstarts ⊢
    omega
  · rw [received_append, stream_cons, hgroup, List.length_append, List.length_append]
    simp [received] at hends ⊢
    omega

/-- Reads that do not cross the end of a text divide there. -/
theorem exists_division {first second : Bytes} (hchunks : ∀ read ∈ reads, read.chunk ≠ [])
    (hreceived : received reads = first ++ second)
    (huncrossed : ∀ earlier read later, reads = earlier ++ read :: later →
      (received earlier).length < first.length →
      (received earlier).length + read.chunk.length ≤ first.length) :
    ∃ group others, reads = group ++ others ∧ received group = first ∧
      received others = second := by
  induction reads generalizing first with
  | nil =>
    obtain ⟨hfirst, hsecond⟩ := List.nil_eq_append_iff.mp hreceived
    exact ⟨[], [], rfl, hfirst.symm, hsecond.symm⟩
  | cons read rest ih =>
    by_cases hempty : first = []
    · exact ⟨[], read :: rest, rfl, hempty.symm, by rw [hreceived, hempty, List.nil_append]⟩
    · have hfits := huncrossed [] read rest rfl (List.length_pos_of_ne_nil hempty)
      rw [received_cons] at hreceived
      obtain ⟨remaining, rfl⟩ : read.chunk <+: first := by
        refine List.prefix_of_prefix_length_le ⟨_, hreceived⟩ (List.prefix_append first second) ?_
        simpa [received] using hfits
      rw [List.append_assoc, List.append_cancel_left_eq] at hreceived
      obtain ⟨group, others, rfl, hgroup, hothers⟩ := ih
        (fun later hlater ↦ hchunks later (List.mem_cons_of_mem _ hlater)) hreceived (by
          intro earlier next later hsplit _
          have hstep := huncrossed (read :: earlier) next later (by rw [hsplit]; rfl)
          simp only [received_cons, List.length_append] at hstep
          omega)
      exact ⟨read :: group, others, rfl, by rw [received_cons, hgroup], hothers⟩

/-- No chunk crosses the end of a command: two tokens would be expected at once. -/
theorem Expects.divides (h : Expects magic (command :: rest) reads)
    (hchunks : ∀ read ∈ reads, read.chunk ≠ [])
    (hreceived : received reads = stream magic (command :: rest))
    (htokens : ((command :: rest).map Command.token).Nodup) :
    ∃ group others, reads = group ++ others ∧ received group = command.segment magic ∧
      received others = stream magic rest ∧ (∀ read ∈ group, read.expected = some command.token) ∧
      Expects magic rest others := by
  rw [stream_cons] at hreceived
  obtain ⟨group, others, rfl, hgroup, hothers⟩ := exists_division hchunks hreceived (by
    intro earlier read later hsplit hstarts
    by_contra hcrosses
    have hlength := congrArg List.length hreceived
    rw [hsplit] at hlength
    simp only [received_append, received_cons, List.length_append] at hlength
    cases rest with
    | nil =>
      simp only [stream, List.flatMap_nil, List.length_nil] at hlength
      omega
    | cons next rest =>
      have hfirst := h.of_split hsplit (List.nil_append _).symm (by simpa [stream] using hstarts)
        (by simp only [stream, List.flatMap_nil, List.length_nil]; omega)
      have hnext : command :: next :: rest = [command] ++ next :: rest := rfl
      have hsecond := h.of_split hsplit hnext (by simp [stream]; omega) (by simp [stream]; omega)
      have hsame : command.token = next.token := Option.some.inj (hfirst.symm.trans hsecond)
      simp [hsame] at htokens)
  refine ⟨group, others, rfl, hgroup, hothers, ?_, h.of_append hgroup⟩
  intro read hread
  obtain ⟨earlier, later, rfl⟩ := List.append_of_mem hread
  have hsplit : earlier ++ read :: later ++ others = earlier ++ read :: (later ++ others) := by simp
  have hpositive := List.length_pos_of_ne_nil (hchunks read (by simp))
  have hlength := congrArg List.length hgroup
  simp only [received_append, received_cons, List.length_append] at hlength
  refine h.of_split hsplit (List.nil_append _).symm ?_ ?_
  · simp only [stream, List.flatMap_nil, List.length_nil]
    omega
  · simp only [stream, List.flatMap_nil, List.length_nil]
    omega

theorem MarkersUnique.head (h : MarkersUnique magic (command :: rest)) (front back : Bytes)
    (hfound : command.output ++ outputSyncMarker magic command.token = front ++
      outputSyncMarker magic command.token ++ back) :
    front.length = command.output.length := by
  have hstream : stream magic (command :: rest) =
      front ++ (outputSyncMarker magic command.token ++ (back ++ stream magic rest)) := by
    rw [stream_cons, Command.segment, hfound]
    simp
  have hplace := h 0 (Nat.zero_lt_succ _) front.length (by rw [hstream, List.length_append]; omega)
  rw [hstream, List.drop_left] at hplace
  simpa [stream] using hplace (List.prefix_append _ _)

theorem MarkersUnique.tail (h : MarkersUnique magic (command :: rest)) :
    MarkersUnique magic rest := by
  intro j hj position _ hfound
  have hplace := h (j + 1) (Nat.succ_lt_succ hj) ((command.segment magic).length + position) (by
    rw [stream_cons, List.length_append]
    omega)
  rw [stream_cons, List.drop_append, List.drop_eq_nil_of_le (Nat.le_add_right _ _),
    Nat.add_sub_cancel_left] at hplace
  have hequal := hplace hfound
  simp only [List.take_succ_cons, stream_cons, List.length_append, List.getElem_cons_succ] at hequal
  omega

def outputs (commands : List Command) : Bytes := commands.flatMap Command.output

/-- The reader removes the markers, and reports each token when the bytes before its marker were
appended. -/
theorem readAll_commands (hexpects : Expects magic commands reads)
    (hchunks : ∀ read ∈ reads, read.chunk ≠ []) (hreceived : received reads = stream magic commands)
    (htokens : (commands.map Command.token).Nodup) (hunique : MarkersUnique magic commands)
    (hnew : ∀ command ∈ commands, reader.lastSyncedToken ≠ some command.token)
    (hpending : reader.pending = []) :
    ∃ last actions, reader.readAll magic reads = (⟨[], last⟩, actions) ∧
      appended actions = outputs commands ∧ sent actions = commands.map Command.token ∧
      ∀ before command after, commands = before ++ command :: after →
        ∃ earlier later, actions = earlier ++ .send command.token :: later ∧
          appended earlier = outputs (before ++ [command]) := by
  induction commands generalizing reads reader with
  | nil =>
    have hnone : reads = [] := by
      by_contra hreads
      exact received_ne_nil hchunks hreads hreceived
    subst hnone
    refine ⟨reader.lastSyncedToken, [], ?_, rfl, rfl, ?_⟩
    · rw [Reader.readAll, ← hpending]
    · rintro (_ | _) command after hsplit <;> cases hsplit
  | cons command _ ih =>
    obtain ⟨group, others, rfl, hgroup, hothers, hexpected, hlater⟩ :=
      hexpects.divides hchunks hreceived htokens
    have hgroupChunks : ∀ read ∈ group, read.chunk ≠ [] := fun read hread ↦
      hchunks read (List.mem_append_left _ hread)
    have hsegment : group ≠ [] := by
      rintro rfl
      have hmarker := outputSyncMarker_ne_nil magic command.token
      exact List.append_ne_nil_of_right_ne_nil _ hmarker hgroup.symm
    have hstart : [] ++ reader.pending ++ received group =
        command.output ++ outputSyncMarker magic command.token := by
      rw [hpending, hgroup]
      rfl
    obtain ⟨earlier, later, hrun, hearlier, hlaterBytes, hsent, hlaterSent⟩ :=
      readAll_segment hexpected hgroupChunks hsegment (hnew command List.mem_cons_self) hstart
        (Nat.zero_le _) hunique.head
    rw [List.nil_append] at hearlier
    rw [List.map_cons, List.nodup_cons] at htokens
    obtain ⟨last, actions, hrest, hbytes, htokensSent, hreports⟩ :=
      @ih others ⟨[], some command.token⟩ hlater
        (fun read hread ↦ hchunks read (List.mem_append_right _ hread)) hothers htokens.2
      hunique.tail (by
        intro _ hnext hsame
        exact htokens.1 (Option.some.inj hsame ▸ List.mem_map_of_mem hnext)) rfl
    refine ⟨last, (earlier ++ .send command.token :: later) ++ actions, ?_, ?_, ?_, ?_⟩
    · rw [readAll_append, hrun, hrest]
    · rw [appended_append, appended_append, appended_send, hearlier, hlaterBytes, hbytes,
        List.append_nil]
      rfl
    · rw [sent_append, sent_append, sent_send, hsent, hlaterSent, htokensSent]
      rfl
    · intro before other after hsplit
      cases before with
      | nil =>
        obtain ⟨rfl, rfl⟩ := List.cons.inj hsplit
        refine ⟨earlier, later ++ actions, by simp, ?_⟩
        rw [hearlier]
        simp [outputs]
      | cons _ before =>
        obtain ⟨rfl, htail⟩ := List.cons.inj hsplit
        obtain ⟨front, back, rfl, hfront⟩ := hreports before other after htail
        refine ⟨earlier ++ .send command.token :: (later ++ front), back, by simp, ?_⟩
        rw [appended_append, appended_send, appended_append, hearlier, hlaterBytes, hfront]
        simp [outputs]

end WebCodex.PersistentShell
