import WebCodex.Foundation.Components
import WebCodex.Foundation.Text

/-!
Two policies name the paths that must not be read: the shared one of listings, searches, reads and
edits (`is_secret_path`, `is_bulk_excluded_path`), and that of the workspace layer
(`sensitive_path`). The first takes the lower case of Unicode, which makes an ASCII letter of the
KELVIN SIGN, and the second that of ASCII.
-/

namespace WebCodex.PathPolicy

open Foundation.Text

def kelvinSign : Char := '\u212A'

/-- What the Unicode tables have for the characters beyond ASCII whose lower case is beyond ASCII
too, which are all but two. The lower case of a character may depend on the text around it, as a
final sigma does. -/
structure LowercaseTables where
  lower : Str → Char → Str → Str
  ne_nil : ∀ front c back, lower front c back ≠ []
  beyond : ∀ front c back, ∀ d ∈ lower front c back, 128 ≤ d.toNat

variable (tables : LowercaseTables)

/-- The lower case of a character between two texts. -/
def lowerChar (front : Str) (c : Char) (back : Str) : Str :=
  if c.toNat < 128 then [c.toLower]
  else if c = kelvinSign then ['k']
  else if c = '\u0130' then ['i', '\u0307']
  else tables.lower front c back

def lowerFrom (front : Str) : Str → Str
  | [] => []
  | c :: back => lowerChar tables front c back ++ lowerFrom (front ++ [c]) back

def toLowercase (text : Str) : Str := lowerFrom tables [] text

def toAsciiLowercase (text : Str) : Str := text.map Char.toLower

def isSeparator (c : Char) : Bool := c == '/' || c == '\\'

def secretComponents : List Str :=
  [".git", "secrets", "tokens", "project-registry", "projects.d"].map String.toList

def secretPrefixes : List Str :=
    [".env", "runner.toml", "agent.toml", "webcodex.env"].map String.toList

def secretSuffixes : List Str := [".pem", ".key", ".env", ".toml.bak"].map String.toList

def bulkComponents : List Str := ["target", "node_modules"].map String.toList

variable (path : Str)

def pathComponents : List Str := ((path.splitOnP isSeparator).filter fun component ↦
    !component.isEmpty && component != ['.'] && component != ['.', '.']).map (toLowercase tables)

variable (component : Str)

/-- The rules of the shared policy for a component in lower case. -/
def isSecretComponent : Bool :=
  secretComponents.contains component || secretPrefixes.any (·.isPrefixOf component) ||
    secretSuffixes.any (·.isSuffixOf component)

def isSecretPath : Bool := (pathComponents tables path).any isSecretComponent

def isBulkExcludedPath : Bool :=
  (pathComponents tables path).any fun component ↦ bulkComponents.contains component

def privateNames : List Str :=
  [".git", "target", "node_modules", "project-registry", "projects.d", "runner.toml", "agent.toml",
    "webcodex.env", ".env", ".npmrc", ".netrc", "secrets", "secret", "tokens", "token",
    "credentials",
    "credential", "passwords", "password"].map String.toList

def privatePrefixes : List Str :=
    [".env", "runner.toml", "agent.toml", "webcodex.env"].map String.toList

def keyNames : List Str := ["id_rsa", "id_ed25519"].map String.toList

def keySuffixes : List Str := [".pem", ".key"].map String.toList

/-- The body of the loop over the components. -/
def isPrivatePart (part : Str) : Bool :=
  if privateNames.contains part then true
  else if privatePrefixes.any (·.isPrefixOf part) then true
  else keyNames.contains part || keySuffixes.any (·.isSuffixOf part)

def sensitivePath : Bool :=
  let parts := (((path.map fun c ↦ if c == '\\' then '/' else c).splitOn '/').filter fun part ↦
    !part.isEmpty && part != ['.']).map toAsciiLowercase
  parts.any isPrivatePart

/-- Replacing backslashes by slashes and splitting at slashes is splitting at both. -/
theorem splitOn_slashes :
    (path.map fun c ↦ if c == '\\' then '/' else c).splitOn '/' = path.splitOnP isSeparator := by
  induction path with
  | nil => rfl
  | cons c _ ih =>
    rw [List.splitOn] at ih ⊢
    rw [List.map_cons, List.splitOnP_cons_eq_if_modifyHead, List.splitOnP_cons_eq_if_modifyHead, ih]
    by_cases hslash : c = '\\'
    · subst hslash
      rfl
    · simp [isSeparator, hslash]

/-- A component of the list of the workspace policy: its ASCII lower case is a private name or a key
file's, begins like a private file or ends like a key. -/
def Listed : Prop := toAsciiLowercase component ∈ privateNames ++ keyNames ∨
    (∃ start ∈ privatePrefixes, start <+: toAsciiLowercase component) ∨
    ∃ ending ∈ keySuffixes, ending <:+ toAsciiLowercase component

theorem isPrivatePart_iff : isPrivatePart (toAsciiLowercase component) = true ↔
    Listed component := by
  unfold isPrivatePart Listed
  split_ifs with hname hstart
  · simp only [true_iff]
    exact Or.inl (List.mem_append_left _ (List.contains_iff_mem.mp hname))
  · simp only [true_iff]
    obtain ⟨start, hmem, hbegins⟩ := List.any_eq_true.mp hstart
    exact Or.inr (Or.inl ⟨start, hmem, List.isPrefixOf_iff_prefix.mp hbegins⟩)
  · have hname' : toAsciiLowercase component ∉ privateNames := fun hmem ↦
      hname (List.contains_iff_mem.mpr hmem)
    have hstart' : ¬ ∃ start ∈ privatePrefixes, start <+: toAsciiLowercase component := by
      rintro ⟨start, hmem, hbegins⟩
      exact hstart (List.any_eq_true.mpr ⟨start, hmem, List.isPrefixOf_iff_prefix.mpr hbegins⟩)
    simp [hname', hstart']

theorem sensitivePath_iff :
    sensitivePath path = true ↔ ∃ component ∈ path.splitOnP isSeparator, Listed component := by
  have hkept {component : Str} (hlisted : Listed component) :
      (!component.isEmpty && component != ['.']) = true := by
    rw [← isPrivatePart_iff] at hlisted
    by_contra hdropped
    by_cases hnil : component = []
    · subst hnil
      revert hlisted
      decide
    · have hdot : component = ['.'] := by simpa [hnil] using hdropped
      subst hdot
      revert hlisted
      decide
  simp only [sensitivePath, splitOn_slashes, List.any_map, List.any_filter, List.any_eq_true,
    Bool.and_eq_true, Function.comp_apply, isPrivatePart_iff]
  constructor
  · rintro ⟨component, hmem, -, hlisted⟩
    exact ⟨component, hmem, hlisted⟩
  · rintro ⟨component, hmem, hlisted⟩
    exact ⟨component, hmem, Bool.and_eq_true _ _ ▸ hkept hlisted, hlisted⟩

/-- The ASCII letter or other character that a character becomes, when it becomes a single one. -/
def foldChar (c : Char) : Char := if c = kelvinSign then 'k' else c.toLower

/-- The lower case of a character: a single ASCII character, or a text that ends beyond ASCII and
does not begin with an ASCII character other than `i`. -/
def IsLower (c : Char) (piece : Str) : Prop := piece = [foldChar c] ∨
    ∃ front last, piece = front ++ [last] ∧ 128 ≤ last.toNat ∧ ∀ d ∈ piece.head?,
      128 ≤ d.toNat ∨ d = 'i'

theorem isLower_lowerChar (front : Str) (c : Char) (back : Str) :
    IsLower c (lowerChar tables front c back) := by
  unfold lowerChar
  split_ifs with hascii hkelvin hdotted
  · refine Or.inl ?_
    have hne : c ≠ kelvinSign := by
      rintro rfl
      revert hascii
      decide
    rw [foldChar, if_neg hne]
  · exact Or.inl (by rw [foldChar, if_pos hkelvin])
  · exact Or.inr ⟨['i'], '\u0307', rfl, by decide, by simp⟩
  · refine Or.inr ⟨_, _, (List.dropLast_concat_getLast (tables.ne_nil front c back)).symm, ?_, ?_⟩
    · exact tables.beyond front c back _ (List.getLast_mem _)
    · exact fun d hd ↦ Or.inl (tables.beyond front c back d (List.mem_of_head? hd))

theorem exists_pieces (text : Str) :
    ∃ pieces, toLowercase tables text = pieces.flatten ∧ List.Forall₂ IsLower text pieces := by
  unfold toLowercase
  generalize [] = front
  induction text generalizing front with
  | nil => exact ⟨[], rfl, .nil⟩
  | cons c back ih =>
    obtain ⟨pieces, hflatten, hpieces⟩ := ih (front ++ [c])
    exact ⟨lowerChar tables front c back :: pieces, by rw [lowerFrom, hflatten, List.flatten_cons],
      .cons (isLower_lowerChar tables front c back) hpieces⟩

variable {text wanted : Str} {pieces : List Str}

theorem map_foldChar_of_flatten (hpieces : List.Forall₂ IsLower text pieces)
    (hascii : ∀ d ∈ pieces.flatten, d.toNat < 128) : text.map foldChar = pieces.flatten := by
  induction hpieces with
  | nil => rfl
  | @cons c piece text pieces hc _ ih =>
    rw [List.flatten_cons, List.forall_mem_append] at hascii
    obtain rfl | ⟨front, last, rfl, hlast, -⟩ := hc
    · rw [List.map_cons, ih hascii.2]
      rfl
    · exact absurd (hascii.1 last (by simp)) (Nat.not_lt_of_le hlast)

/-- A piece is a single character or begins with one that is not among the wanted. -/
def Opens (wanted : Str) (c : Char) (piece : Str) : Prop :=
  piece = [foldChar c] ∨ ∃ d rest, piece = d :: rest ∧ d ∉ wanted

theorem exists_front_of_opens {front : Str} (hpieces : List.Forall₂ (Opens wanted) text pieces)
    (hwanted : ∀ d ∈ front, d ∈ wanted) (hbegins : front <+: pieces.flatten) :
    ∃ start, start <+: text ∧ start.map foldChar = front := by
  induction front generalizing text pieces with
  | nil => exact ⟨[], List.nil_prefix, rfl⟩
  | cons _ _ ih =>
    rw [List.forall_mem_cons] at hwanted
    cases hpieces with
    | nil => simp at hbegins
    | @cons c piece text pieces hc hrest =>
      rw [List.flatten_cons] at hbegins
      obtain rfl | ⟨e, rest, rfl, he⟩ := hc
      · rw [List.singleton_append, List.cons_prefix_cons] at hbegins
        obtain ⟨start, hstart, hfold⟩ := ih hrest hwanted.2 hbegins.2
        exact ⟨c :: start, (List.prefix_cons_inj c).mpr hstart, by rw [List.map_cons, hfold,
          hbegins.1]⟩
      · rw [List.cons_append, List.cons_prefix_cons] at hbegins
        exact absurd (hbegins.1 ▸ hwanted.1) he

theorem exists_front_of_prefix (hpieces : List.Forall₂ IsLower text pieces)
    (hascii : ∀ d ∈ wanted, d.toNat < 128 ∧ d ≠ 'i') (hbegins : wanted <+: pieces.flatten) :
    ∃ front, front <+: text ∧ front.map foldChar = wanted := by
  refine exists_front_of_opens (hpieces.imp fun _ _ hc ↦ ?_) (fun d hd ↦ hd) hbegins
  obtain rfl | ⟨front, last, rfl, -, hhead⟩ := hc
  · exact Or.inl rfl
  · obtain ⟨d, rest, heq⟩ : ∃ d rest, front ++ [last] = d :: rest :=
      List.exists_cons_of_ne_nil (by simp)
    refine Or.inr ⟨d, rest, heq, fun hmem ↦ ?_⟩
    obtain hbeyond | hdotted := hhead d (by rw [heq]; rfl)
    · exact absurd (hascii d hmem).1 (Nat.not_lt_of_le hbeyond)
    · exact (hascii d hmem).2 hdotted

theorem exists_back_of_suffix (hpieces : List.Forall₂ IsLower text pieces)
    (hascii : ∀ d ∈ wanted, d.toNat < 128) (hsuffix : wanted <:+ pieces.flatten) :
    ∃ back, back <:+ text ∧ back.map foldChar = wanted := by
  have hopens : List.Forall₂ (Opens wanted) text.reverse (pieces.reverse.map List.reverse) := by
    rw [List.forall₂_map_right_iff, List.forall₂_reverse_iff]
    refine hpieces.imp fun _ _ hc ↦ ?_
    obtain rfl | ⟨front, last, rfl, hlast, -⟩ := hc
    · exact Or.inl rfl
    · exact Or.inr ⟨last, front.reverse, List.reverse_concat, fun hmem ↦
        absurd (hascii last hmem) (Nat.not_lt_of_le hlast)⟩
  have hmem : ∀ d ∈ wanted.reverse, d ∈ wanted := fun d hd ↦ List.mem_reverse.mp hd
  obtain ⟨start, _, hfold⟩ := exists_front_of_opens hopens hmem (by
      rw [List.map_reverse, ← List.reverse_flatten]
      exact List.reverse_prefix.mpr hsuffix)
  exact ⟨start.reverse, List.reverse_prefix.mp (by rwa [List.reverse_reverse]), by
    rw [List.map_reverse, hfold, List.reverse_reverse]⟩

/-- Without a KELVIN SIGN both lower cases agree where they are ASCII. -/
theorem map_foldChar_eq {part whole : Str} (hpart : part.map foldChar = wanted)
    (hmem : part ⊆ whole) :
    toAsciiLowercase part = wanted ∨ 'k' ∈ wanted ∧ kelvinSign ∈ whole := by
  by_cases hkelvin : kelvinSign ∈ part
  · exact Or.inr ⟨by rw [← hpart]; exact List.mem_map.mpr ⟨kelvinSign, hkelvin, if_pos rfl⟩,
      hmem hkelvin⟩
  · refine Or.inl (hpart ▸ List.map_congr_left fun c hc ↦ ?_)
    have hne : c ≠ kelvinSign := fun hsame ↦ hkelvin (hsame ▸ hc)
    exact (if_neg hne).symm

/-- A component that ends like an environment file or a backup of a configuration, or gets to
`tokens` or to the ending of a key only through a KELVIN SIGN. -/
def Overlooked : Prop :=
  ".env".toList <:+ toLowercase tables component ∨ ".toml.bak".toList <:+
    toLowercase tables component ∨
    kelvinSign ∈ component ∧
      (toLowercase tables component = "tokens".toList ∨ ".key".toList <:+
        toLowercase tables component)

theorem isSecretComponent_iff : isSecretComponent component = true ↔ component ∈ secretComponents ∨
      (∃ start ∈ secretPrefixes, start <+: component) ∨ ∃ ending ∈ secretSuffixes, ending <:+
        component := by
  simp only [isSecretComponent, Bool.or_eq_true, List.contains_iff_mem, List.any_eq_true,
    List.isPrefixOf_iff_prefix, List.isSuffixOf_iff_suffix, or_assoc]

/-- A component that the shared policy flags is on the list of the workspace policy or
overlooked. -/
theorem listed_or_overlooked {component : Str}
    (hflagged : (isSecretComponent (toLowercase tables component) ||
      bulkComponents.contains (toLowercase tables component)) = true) :
    Listed component ∨ Overlooked tables component := by
  obtain ⟨_, hlower, hpieces⟩ := exists_pieces tables component
  have hname : toLowercase tables component ∈ secretComponents ++ bulkComponents →
      Listed component ∨ Overlooked tables component := by
    intro hmem
    have hnames : ∀ name ∈ secretComponents ++ bulkComponents,
      (name.all fun d ↦ d.toNat < 128) = true ∧
        name ∈ privateNames ++ keyNames ∧ ('k' ∈ name → name = "tokens".toList) := by decide
    obtain ⟨hascii, hprivate, hk⟩ := hnames _ hmem
    simp only [List.all_eq_true, decide_eq_true_eq] at hascii
    have hfold := map_foldChar_of_flatten hpieces (hlower ▸ hascii)
    obtain hsame | ⟨hletter, hkelvin⟩ := map_foldChar_eq hfold (List.Subset.refl component)
    · exact Or.inl (Or.inl (by rw [hsame, ← hlower]; exact hprivate))
    · exact Or.inr (Or.inr (Or.inr ⟨hkelvin, Or.inl (hk (hlower ▸ hletter))⟩))
  rw [Bool.or_eq_true, isSecretComponent_iff, List.contains_iff_mem] at hflagged
  obtain (hmem | ⟨start, hstart, hbegins⟩ | ⟨ending, hending, hsuffix⟩) | hmem := hflagged
  · exact hname (List.mem_append_left _ hmem)
  · have hstarts : ∀ start ∈ secretPrefixes, (start.all fun d ↦ d.toNat < 128 ∧ d ≠ 'i') = true ∧
        start ∈ privatePrefixes ∧ 'k' ∉ start := by decide
    obtain ⟨hascii, hprivate, hk⟩ := hstarts start hstart
    simp only [List.all_eq_true, decide_eq_true_eq] at hascii
    obtain ⟨_, hfront, hfold⟩ := exists_front_of_prefix hpieces hascii (hlower ▸ hbegins)
    obtain hsame | ⟨hletter, -⟩ := map_foldChar_eq hfold hfront.subset
    · exact Or.inl (Or.inr (Or.inl ⟨start, hprivate, hsame ▸ hfront.map Char.toLower⟩))
    · exact absurd hletter hk
  · have hendings : ∀ ending ∈ secretSuffixes, (ending.all fun d ↦ d.toNat < 128) = true ∧
        (ending = ".env".toList ∨ ending = ".toml.bak".toList ∨
          ending ∈ keySuffixes ∧ ('k' ∈ ending → ending = ".key".toList)) := by decide
    obtain ⟨hascii, rfl | rfl | ⟨hprivate, hk⟩⟩ := hendings ending hending
    · exact Or.inr (Or.inl hsuffix)
    · exact Or.inr (Or.inr (Or.inl hsuffix))
    · simp only [List.all_eq_true, decide_eq_true_eq] at hascii
      obtain ⟨_, hback, hfold⟩ := exists_back_of_suffix hpieces hascii (hlower ▸ hsuffix)
      obtain hsame | ⟨hletter, hkelvin⟩ := map_foldChar_eq hfold hback.subset
      · exact Or.inl (Or.inr (Or.inr ⟨ending, hprivate, hsame ▸ hback.map Char.toLower⟩))
      · exact Or.inr (Or.inr (Or.inr ⟨hkelvin, Or.inr (hk hletter ▸ hsuffix)⟩))
  · exact hname (List.mem_append_right _ hmem)

theorem isSecretComponent_of_overlooked {component : Str} (h : Overlooked tables component) :
    isSecretComponent (toLowercase tables component) = true := by
  rw [isSecretComponent_iff]
  obtain hsuffix | hsuffix | ⟨-, hname | hsuffix⟩ := h
  · exact Or.inr (Or.inr ⟨_, by decide, hsuffix⟩)
  · exact Or.inr (Or.inr ⟨_, by decide, hsuffix⟩)
  · exact Or.inl (by rw [hname]; decide)
  · exact Or.inr (Or.inr ⟨_, by decide, hsuffix⟩)

/-- The components that the shared policy leaves out are not overlooked. -/
theorem ne_of_overlooked {component : Str} (h : Overlooked tables component) :
    component ≠ [] ∧ component ≠ ['.'] ∧ component ≠ ['.', '.'] := by
  have hflagged := isSecretComponent_of_overlooked tables h
  refine ⟨?_, ?_, ?_⟩
  · rintro rfl
    exact absurd (show isSecretComponent [] = true from hflagged) (by decide)
  · rintro rfl
    exact absurd (show isSecretComponent ['.'] = true from hflagged) (by decide)
  · rintro rfl
    exact absurd (show isSecretComponent ['.', '.'] = true from hflagged) (by decide)

theorem flagged_iff : (isSecretPath tables path || isBulkExcludedPath tables path) = true ↔
      ∃ component ∈ path.splitOnP isSeparator, (component ≠ [] ∧ component ≠ ['.'] ∧
        component ≠ ['.', '.']) ∧
        (isSecretComponent (toLowercase tables component) ||
          bulkComponents.contains (toLowercase tables component)) = true := by
  simp only [isSecretPath, isBulkExcludedPath, pathComponents, List.any_map, List.any_filter,
    Bool.or_eq_true, List.any_eq_true, Bool.and_eq_true, Function.comp_apply, Bool.not_eq_true',
    List.isEmpty_eq_false_iff,
    bne_iff_ne, and_assoc, ← exists_or, ← and_or_left]

/-- The workspace policy flags every path that the shared policy flags, for secrecy or as bulk,
exactly when each overlooked component of the path comes with a component of the workspace list. -/
theorem workspace_covers_shared_iff (path : Str) :
    (isSecretPath tables path = true ∨ isBulkExcludedPath tables path = true →
      sensitivePath path = true) ↔
      ∀ component ∈ path.splitOnP isSeparator, Overlooked tables component →
        ∃ other ∈ path.splitOnP isSeparator, Listed other := by
  rw [← Bool.or_eq_true, flagged_iff, sensitivePath_iff]
  constructor
  · intro hcovers component hmem hoverlooked
    exact hcovers ⟨component, hmem, ne_of_overlooked tables hoverlooked, by
      rw [isSecretComponent_of_overlooked tables hoverlooked]; rfl⟩
  · rintro hlisted ⟨component, hmem, -, hflagged⟩
    obtain hself | hoverlooked := listed_or_overlooked tables hflagged
    · exact ⟨component, hmem, hself⟩
    · exact hlisted component hmem hoverlooked

/-- Tables that keep every character beyond ASCII. -/
def plainTables : LowercaseTables where
  lower _ c _ := [max c '\u0080']
  ne_nil _ _ _ := List.cons_ne_nil _ _
  beyond _ c _ d hd := by
    rw [List.mem_singleton.mp hd]
    exact le_max_right c '\u0080'

/-- The shared classifier takes `deploy.env` for a secret and the workspace's policy does not. -/
theorem environment_file_is_overlooked :
    ¬ (isSecretPath plainTables "deploy.env".toList = true ∨
      isBulkExcludedPath plainTables "deploy.env".toList = true →
      sensitivePath "deploy.env".toList = true) := by
  decide

end WebCodex.PathPolicy
