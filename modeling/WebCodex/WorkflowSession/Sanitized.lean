import WebCodex.WorkflowSession.Restore

/-!
`ValidMessage` says what the message operations guarantee about the messages that they create and
change. Sanitising such a message gives the message itself (`sanitizePersistedMessage_eq_self`).
-/

namespace WebCodex.WorkflowSession

open Foundation Foundation.Text

theorem isWhitespace_of_isAscii {c : Char} (h : isAsciiAlphanumericOrUnderscore c = true) :
    isWhitespace c = false := by
  have hrange : (48 ≤ c.toNat ∧ c.toNat ≤ 57) ∨ (97 ≤ c.toNat ∧ c.toNat ≤ 122) ∨
      (65 ≤ c.toNat ∧ c.toNat ≤ 90) ∨ c.toNat = 95 := by
    simp only [isAsciiAlphanumericOrUnderscore, Bool.or_eq_true, Bool.and_eq_true,
      decide_eq_true_eq, beq_iff_eq] at h
    rcases h with ((⟨hlow, hhigh⟩ | ⟨hlow, hhigh⟩) | ⟨hlow, hhigh⟩) | hsame
    · exact Or.inl ⟨hlow, hhigh⟩
    · exact Or.inr (Or.inl ⟨hlow, hhigh⟩)
    · exact Or.inr (Or.inr (Or.inl ⟨hlow, hhigh⟩))
    · exact Or.inr (Or.inr (Or.inr (by rw [hsame]; rfl)))
  simp only [isWhitespace, Bool.or_eq_false_iff, Bool.and_eq_false_iff, decide_eq_false_iff_not,
    beq_eq_false_iff_ne]
  omega

variable {value id : Str}

theorem trim_of_all_isAscii (h : value.all isAsciiAlphanumericOrUnderscore = true) :
    trim value = value :=
  trim_of_forall fun c hc ↦ isWhitespace_of_isAscii (List.all_eq_true.mp h c hc)

theorem trim_of_isValidSessionId (h : isValidSessionId value = true) : trim value = value := by
  simp only [isValidSessionId, Bool.and_eq_true] at h
  exact trim_of_all_isAscii h.2

theorem isPrefixOf_of_isValidPersistedMessageId {messageId : Str}
    (h : isValidPersistedMessageId messageId = true) :
    messageIdPrefix.isPrefixOf messageId = true := by
  simp only [isValidPersistedMessageId, Bool.and_eq_true] at h
  exact h.1.1

theorem trim_of_isValidPersistedMessageId {messageId : Str}
    (h : isValidPersistedMessageId messageId = true) : trim messageId = messageId := by
  have hall : messageId.all isAsciiAlphanumericOrUnderscore = true := by
    have hstart := isPrefixOf_of_isValidPersistedMessageId h
    obtain ⟨_, rfl⟩ := List.isPrefixOf_iff_prefix.mp hstart
    simp only [isValidPersistedMessageId, Bool.and_eq_true, List.drop_left] at h
    rw [List.all_append, h.2, Bool.and_true]
    decide
  exact trim_of_all_isAscii hall

/-- A completion id has no capital letters and no white space. -/
theorem sanitizeCompletionId_eq_self {completionId : Str}
    (h : isValidCompletionId completionId = true) :
    sanitizeCompletionId completionId = completionId := by
  have hdigits : ∀ c ∈ completionId, ('0' ≤ c ∧ c ≤ '9') ∨ ('a' ≤ c ∧ c ≤ 'f') := by
    simp only [isValidCompletionId, Bool.and_eq_true, List.all_eq_true] at h
    intro c hc
    simpa using h.2 c hc
  have htrim : trim completionId = completionId := by
    refine trim_of_all_isAscii (List.all_eq_true.mpr fun c hc ↦ ?_)
    rcases hdigits c hc with ⟨hlow, hhigh⟩ | ⟨hlow, hhigh⟩
    · simp [isAsciiAlphanumericOrUnderscore, hlow, hhigh]
    · have hz : c ≤ 'z' := le_trans hhigh (by decide)
      simp [isAsciiAlphanumericOrUnderscore, hlow, hz]
  have hlower : toAsciiLowercase completionId = completionId := by
    refine (List.map_congr_left fun c hc ↦ ?_).trans (List.map_id _)
    have hnot : ¬ ('A' ≤ c ∧ c ≤ 'Z') := by
      rintro ⟨hlow, hhigh⟩
      rcases hdigits c hc with ⟨-, hnine⟩ | ⟨ha, -⟩
      · exact absurd (le_trans hlow hnine) (by decide)
      · exact absurd (le_trans ha hhigh) (by decide)
    rw [if_neg hnot]
    rfl
  unfold sanitizeCompletionId
  rw [htrim, hlower]
  simp [h]

/-- A text that fits is not shortened. -/
theorem boundChars_eq_self {maxChars : ℕ} (h : value.length ≤ maxChars) :
    boundChars value maxChars = value := by
  simp [boundChars, Nat.not_lt.mpr h]

theorem validateMessageText_eq_ok {text : Str} (h : validateMessageText value = .ok text) :
    trim text = text ∧ text.length ≤ maxMessageChars := by
  simp only [validateMessageText, bind_eq_ok, ensure_eq_ok, decide_eq_true_eq, pure_eq_ok] at h
  obtain ⟨-, -, -, hlength, rfl⟩ := h
  exact ⟨trim_trim value, hlength⟩

theorem validateResolutionText_eq_ok {text : Str} (h : validateResolutionText value = .ok text) :
    trim text = text ∧ text.length ≤ maxMessageResolutionChars := by
  simp only [validateResolutionText, bind_eq_ok, ensure_eq_ok, decide_eq_true_eq, pure_eq_ok] at h
  obtain ⟨-, hlength, rfl⟩ := h
  exact ⟨trim_trim value, hlength⟩

structure CleanTags (tags : List Str) : Prop where
  nodup : tags.Nodup
  clean : ∀ tag ∈ tags, trim tag = tag ∧ tag ≠ [] ∧ tag.length ≤ maxMessageTagChars

variable {tags values : List Str}

theorem CleanTags.append (h : CleanTags tags) (hnew : tags.contains (trim value) = false)
    (hne : (trim value).isEmpty = false) (hlength : ¬ maxMessageTagChars < (trim value).length) :
    CleanTags (tags ++ [trim value]) where
  nodup := by
    refine List.nodup_append.mpr ⟨h.nodup, by simp, fun tag htag other hother hsame ↦ ?_⟩
    obtain rfl : other = trim value := by simpa using hother
    rw [← hsame] at hnew
    simp [htag] at hnew
  clean := by
    intro tag htag
    rcases List.mem_append.mp htag with htag | htag
    · exact h.clean tag htag
    · obtain rfl : tag = trim value := by simpa using htag
      exact ⟨trim_trim value, by simpa using hne, Nat.not_lt.mp hlength⟩

/-- Validation cleans the tags, and there are no more than before. -/
theorem cleanTags_of_collectTags {result : List Str} (hclean : CleanTags tags)
    (h : collectTags tags values = .ok result) :
    CleanTags result ∧ result.length ≤ tags.length + values.length := by
  induction values generalizing tags with
  | nil =>
    simp only [collectTags, Except.ok.injEq] at h
    subst h
    exact ⟨hclean, by simp⟩
  | cons value _ ih =>
    rw [collectTags] at h
    by_cases hempty : (trim value).isEmpty = true
    · rw [if_pos hempty] at h
      obtain ⟨hresult, hlength⟩ := ih hclean h
      exact ⟨hresult, by simp only [List.length_cons]; omega⟩
    · rw [if_neg hempty] at h
      by_cases hlong : maxMessageTagChars < (trim value).length
      · rw [if_pos hlong] at h
        exact absurd h (by simp)
      · rw [if_neg hlong] at h
        by_cases hold : tags.contains (trim value) = true
        · rw [if_pos hold] at h
          obtain ⟨hresult, hlength⟩ := ih hclean h
          exact ⟨hresult, by simp only [List.length_cons]; omega⟩
        · rw [if_neg hold] at h
          have hnext := hclean.append (by simpa using hold) (by simpa using hempty) hlong
          obtain ⟨hresult, hlength⟩ := ih hnext h
          refine ⟨hresult, ?_⟩
          simp only [List.length_append, List.length_cons, List.length_nil] at hlength ⊢
          omega

/-- Clean tags pass as they are. -/
theorem collectTags_of_clean (h : CleanTags (tags ++ values)) :
    collectTags tags values = .ok (tags ++ values) := by
  induction values generalizing tags with
  | nil => simp [collectTags]
  | cons value rest ih =>
    obtain ⟨htrim, hne, hlength⟩ := h.clean value (by simp)
    have hnew : tags.contains value = false := by
      have hapart := (List.nodup_append.mp h.nodup).2.2
      rw [Bool.eq_false_iff]
      intro hmem
      exact hapart value (by simpa using hmem) value (by simp) rfl
    have hrest : CleanTags (tags ++ [value] ++ rest) := by simpa using h
    rw [collectTags]
    simp only [htrim, List.isEmpty_iff, hne, if_false, Nat.not_lt.mpr hlength, hnew,
      Bool.false_eq_true]
    simpa using ih hrest

theorem validateMessageTags_eq_ok (h : validateMessageTags values = .ok tags) :
    validateMessageTags tags = .ok tags := by
  unfold validateMessageTags at h
  by_cases hmany : maxMessageTags < values.length
  · rw [if_pos hmany] at h
    exact absurd h (by simp)
  · rw [if_neg hmany] at h
    have hnone : CleanTags [] := ⟨by simp, by simp⟩
    obtain ⟨hclean, hlength⟩ := cleanTags_of_collectTags hnone h
    have hfew : ¬ maxMessageTags < tags.length := by
      simp only [List.length_nil] at hlength
      omega
    rw [validateMessageTags, if_neg hfew]
    exact collectTags_of_clean (by simpa using hclean)

/-- What the operations guarantee about every message of a board. -/
structure ValidMessage (sessionId : Str) (message : SessionMessage) : Prop where
  sessionId : message.sessionId = sessionId
  messageId : isValidPersistedMessageId message.messageId = true
  text : trim message.message = message.message ∧ message.message.length ≤ maxMessageChars
  tags : validateMessageTags message.tags = .ok message.tags
  ack : message.requiresAck = true → message.kind = .guidance ∧ message.priority = .high
  firstAck : ∀ time, message.firstAckObservedAt = some time → 0 < time ∧ message.requiresAck = true
  replyTo : ∀ id, message.replyTo = some id → isValidPersistedMessageId id = true
  author : ∀ id, message.authorSessionId = some id → isValidSessionId id = true
  resolvedBy : ∀ id, message.resolvedByMessageId = some id → isValidPersistedMessageId id = true
  supersedes : ∀ id, message.supersedesMessageId = some id → isValidPersistedMessageId id = true
  supersededBy : ∀ id, message.supersededByMessageId = some id →
    isValidPersistedMessageId id = true ∧ message.closureKind = some .superseded
  completion : ∀ id, message.completionId = some id → isValidCompletionId id = true
  resolution : ∀ text, message.resolution = some text →
    trim text = text ∧ text.length ≤ maxMessageResolutionChars
  opened : message.status = .opened → message.closureKind = none ∧ message.resolvedAt = none ∧
    message.resolution = none ∧ message.resolvedByMessageId = none ∧ message.completionId = none
  completed : message.completionId.isSome = message.resolvedByMessageId.isSome
  completedTodo : message.completionId.isSome = true → message.kind = .todo

/-- Binding an optional value to a function that keeps it. -/
theorem bind_eq_self {A : Type} {value : Option A} {f : A → Option A}
    (h : ∀ found, value = some found → f found = some found) : value.bind f = value := by
  cases value with
  | none => rfl
  | some found => exact h found rfl

theorem sanitizeLink_eq_self (h : isValidPersistedMessageId id = true) :
    sanitizeLink id = some id := by
  simp [sanitizeLink, trim_of_isValidPersistedMessageId h,
    isPrefixOf_of_isValidPersistedMessageId h]

theorem sanitizeStrictLink_eq_self (h : isValidPersistedMessageId id = true) :
    sanitizeStrictLink id = some id := by
  simp [sanitizeStrictLink, trim_of_isValidPersistedMessageId h, h]

theorem sanitizeAuthor_eq_self (h : isValidSessionId id = true) : sanitizeAuthor id = some id := by
  simp [sanitizeAuthor, trim_of_isValidSessionId h, h]

/-- Reading a valid message back gives the message. -/
theorem sanitizePersistedMessage_eq_self {sessionId : Str} {message : SessionMessage}
    (h : ValidMessage sessionId message) :
    sanitizePersistedMessage sessionId message = some message := by
  have hack : (message.requiresAck && decide (message.kind = .guidance) &&
      decide (message.priority = .high)) = message.requiresAck := by
    cases hrequired : message.requiresAck with
    | false => rfl
    | true =>
      obtain ⟨hkind, hpriority⟩ := h.ack hrequired
      simp [hkind, hpriority]
  have hfirst : message.firstAckObservedAt.filter (fun time ↦ decide (0 < time) &&
      message.requiresAck) = message.firstAckObservedAt := by
    cases htime : message.firstAckObservedAt with
    | none => rfl
    | some time =>
      obtain ⟨hpositive, hrequired⟩ := h.firstAck time htime
      simp [hpositive, hrequired]
  have hclosure : (if message.status = .resolved then message.closureKind else none) =
      message.closureKind := by
    cases hstatus : message.status with
    | resolved => simp
    | opened => simp [(h.opened hstatus).1]
  have hsuperseded : (if message.status = .resolved ∧ message.closureKind = some .superseded then
      message.supersededByMessageId.bind sanitizeStrictLink else none) =
        message.supersededByMessageId := by
    cases hlink : message.supersededByMessageId with
    | none => simp
    | some id =>
      obtain ⟨hvalid, hkind⟩ := h.supersededBy id hlink
      have hstatus : message.status = .resolved := by
        cases hopen : message.status with
        | resolved => rfl
        | opened =>
          rw [(h.opened hopen).1] at hkind
          exact absurd hkind (by simp)
      simp [hstatus, hkind, sanitizeStrictLink_eq_self hvalid]
  have hcompletion : message.completionId.map sanitizeCompletionId = message.completionId := by
    cases hid : message.completionId with
    | none => rfl
    | some id => simp [sanitizeCompletionId_eq_self (h.completion id hid)]
  have hresolution : message.resolution.map (fun resolution ↦
      boundChars (trim resolution) maxMessageResolutionChars) = message.resolution := by
    cases htext : message.resolution with
    | none => rfl
    | some text =>
      obtain ⟨htrim, hlength⟩ := h.resolution text htext
      simp [htrim, boundChars_eq_self hlength]
  unfold sanitizePersistedMessage
  have hkeep : ¬ (message.sessionId ≠ sessionId ∨
      messageIdPrefix.isPrefixOf message.messageId = false) := by
    simp [h.sessionId, isPrefixOf_of_isValidPersistedMessageId h.messageId]
  rw [if_neg hkeep]
  simp [hack, hfirst, hclosure, hsuperseded, hcompletion, hresolution, h.tags, h.text.1,
    boundChars_eq_self h.text.2, bind_eq_self fun id hid ↦ sanitizeLink_eq_self (h.replyTo id hid),
    bind_eq_self fun id hid ↦ sanitizeAuthor_eq_self (h.author id hid), bind_eq_self fun id hid ↦
      sanitizeLink_eq_self (h.resolvedBy id hid), bind_eq_self fun id hid ↦
        sanitizeStrictLink_eq_self (h.supersedes id hid)]

end WebCodex.WorkflowSession
