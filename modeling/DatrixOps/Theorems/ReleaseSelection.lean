import DatrixOps.Release.Precedence
import DatrixOps.Server.UpdateTarget
import DatrixOps.Theorems.VersionOrder

/-! Which release the update job takes for the newest. Its comparison reads three numbers of a version and no
    pre-release, so that among versions with the same numbers the first one listed stays. -/

namespace DatrixOps
namespace ReleaseSelection
open Golang

variable {v w m : String} {versions tags : List String}

theorem tagVersion_spec {tag : String} (h : tagVersion tag = some v) :
    v ≠ "" ∧ ∃ read, semverPattern v.toList = some read := by
  have accepted (ver : List Char) (h : (if ver ≠ [] ∧ (semverPattern ver).isSome then some (String.ofList ver)
    else none) = some v) :
      v ≠ "" ∧ ∃ read, semverPattern v.toList = some read := by
    obtain ⟨⟨some_, matched⟩, text⟩ := Option.ite_none_right_eq_some.mp h
    obtain rfl := Option.some.inj text
    refine ⟨fun none_ => some_ ?_, ?_⟩
    · rw [← String.toList_ofList (l := ver), none_]
      rfl
    · rw [String.toList_ofList]
      exact Option.isSome_iff_exists.mp matched
  exact accepted _ h

theorem compareSemVer_self : compareSemVer v v = .eq := Std.ReflCmp.compare_self

theorem isLE_of_not_gt {o : Ordering} (h : o ≠ .gt) : o.isLE := by
  cases o with
  | lt | eq => rfl
  | gt => exact absurd rfl h

/-- The greatest is not below any version it is compared with. -/
theorem maxVersion_isLE (hm : m ≠ "") (filled : ∀ v ∈ versions, v ≠ "") :
    (compareSemVer m (maxVersion m versions)).isLE ∧
      ∀ v ∈ versions, (compareSemVer v (maxVersion m versions)).isLE := by
  induction versions generalizing m with
  | nil => exact ⟨isLE_of_not_gt (by rw [maxVersion, compareSemVer_self]; decide), fun _ h => (by cases h)⟩
  | cons w versions ih =>
    have rest := fun v hv => filled v (List.mem_cons_of_mem w hv)
    rw [maxVersion]
    by_cases greater : compareSemVer w m = .gt
    · rw [if_pos (Or.inr greater)]
      obtain ⟨own, others⟩ := ih (filled w List.mem_cons_self) rest
      have below : (compareSemVer m w).isLE := by
        rw [Std.OrientedCmp.gt_iff_lt.mp greater]
        rfl
      exact ⟨Std.TransCmp.isLE_trans below own, List.forall_mem_cons.mpr ⟨own, others⟩⟩
    · rw [if_neg (not_or.mpr ⟨hm, greater⟩)]
      obtain ⟨own, others⟩ := ih hm rest
      exact ⟨own, List.forall_mem_cons.mpr ⟨Std.TransCmp.isLE_trans (isLE_of_not_gt greater) own, others⟩⟩

theorem maxVersion_mem : maxVersion m versions ∈ m :: versions := by
  induction versions generalizing m with
  | nil => exact List.mem_singleton_self m
  | cons w versions ih =>
    rw [maxVersion]
    split
    · exact List.mem_cons_of_mem m ih
    · rcases List.mem_cons.mp (ih (m := m)) with own | other
      · rw [own]
        exact List.mem_cons_self
      · exact List.mem_cons_of_mem m (List.mem_cons_of_mem w other)

/-- A version that nothing is greater than stays. -/
theorem maxVersion_eq_self (hm : m ≠ "") (greatest : ∀ v ∈ versions, compareSemVer v m ≠ .gt) :
    maxVersion m versions = m := by
  induction versions with
  | nil => rfl
  | cons w versions ih =>
    rw [maxVersion, if_neg (not_or.mpr ⟨hm, greatest w List.mem_cons_self⟩)]
    exact ih fun v hv => greatest v (List.mem_cons_of_mem w hv)

/-- The versions that are looked at. -/
def considered (tags : List String) : List String := tags.filterMap tagVersion

theorem considered_filled (hv : v ∈ considered tags) : v ≠ "" := by
  obtain ⟨tag, -, version⟩ := List.mem_filterMap.mp hv
  exact (tagVersion_spec version).1

theorem selectRelease_mem (some_ : considered tags ≠ []) : selectRelease tags ∈ considered tags := by
  obtain ⟨w, rest, h⟩ := List.exists_cons_of_ne_nil some_
  have first : selectRelease tags = maxVersion w rest := by
    change maxVersion "" (considered tags) = maxVersion w rest
    rw [h, maxVersion, if_pos (Or.inl rfl)]
  rw [first, h]
  exact maxVersion_mem

/-- No version that is looked at has greater numbers. -/
theorem selectRelease_isLE (hv : v ∈ considered tags) : (compareSemVer v (selectRelease tags)).isLE := by
  obtain ⟨w, rest, h⟩ := List.exists_cons_of_ne_nil (List.ne_nil_of_mem hv)
  have filled : ∀ v ∈ w :: rest, v ≠ "" := fun v hv => considered_filled (show v ∈ considered tags from h ▸ hv)
  have first : selectRelease tags = maxVersion w rest := by
    change maxVersion "" (considered tags) = maxVersion w rest
    rw [h, maxVersion, if_pos (Or.inl rfl)]
  obtain ⟨own, others⟩ := maxVersion_isLE (filled w List.mem_cons_self) fun v hv => filled v (List.mem_cons_of_mem w hv)
  rw [first]
  rw [h] at hv
  rcases List.mem_cons.mp hv with rfl | hv
  · exact own
  · exact others v hv

/-! ### Precedence -/

/-- The precedence of a version that the pattern accepts, if it is one of Semantic Versioning after its letter. -/
def precedence (v : String) : Option SemanticVersion.Precedence := do
  let m ← semverPattern v.toList
  SemanticVersion.precedence m.major m.minor m.patch m.rest

/-- Both are versions of Semantic Versioning, and the first has the lower precedence. -/
def Precedes (a b : String) : Prop := ∃ p q, precedence a = some p ∧ precedence b = some q ∧ p < q

/-- The selection of the claimed kind: the same in every order of the tags, and of greatest precedence among
the versions looked at. -/
structure Sound (tags : List String) : Prop where
  order : ∀ tags', tags.Perm tags' → selectRelease tags' = selectRelease tags
  maximal : ∀ v ∈ considered tags, ¬Precedes (selectRelease tags) v

/-- A pre-release is then not selected when the final version is listed. -/
theorem Sound.final (sound : Sound tags) {n : SemanticVersion.Numbers} {pre : List SemanticVersion.Identifier}
    (hv : v ∈ considered tags)
    (final : precedence v = some (toLex (n, ⊤))) :
      precedence (selectRelease tags) ≠ some (toLex (n, WithTop.some pre)) := fun selected =>
  sound.maximal v hv ⟨_, _, selected, final, Prod.Lex.lt_iff.mpr (Or.inr ⟨rfl, WithTop.coe_lt_top pre⟩)⟩

/-- The numbers of `v` are less than those of `t`, both as they are read and, with a precedence, as they are. -/
structure Below (v t : String) : Prop where
  read : compareSemVer v t = .lt
  written : ∀ p q, precedence v = some p → precedence t = some q → (ofLex p).1 < (ofLex q).1

/-- One version has greater numbers than all others that are looked at. -/
def Distinguished (tags : List String) : Prop := considered tags = [] ∨
    ∃ t ∈ considered tags, ∀ v ∈ considered tags, v ≠ t → Below v t

theorem atoiValue_congr {s t : List Char} (h : digits s = digits t) : atoiValue s = atoiValue t := by
  rw [atoiValue, atoiValue, h]

/-- Versions with the same numbers compare alike. -/
theorem compareSemVer_of_numbers {p q : SemanticVersion.Precedence} (hv : precedence v = some p)
    (hw : precedence w = some q)
    (same : (ofLex p).1 = (ofLex q).1) : compareSemVer v w = .eq := by
  obtain ⟨m, matched, hp⟩ := Option.bind_eq_some_iff.mp hv
  obtain ⟨m', matched', hq⟩ := Option.bind_eq_some_iff.mp hw
  obtain ⟨x, y, z, hx, hy, hz, numbers⟩ := SemanticVersion.numbers_of_precedence hp
  obtain ⟨x', y', z', hx', hy', hz', numbers'⟩ := SemanticVersion.numbers_of_precedence hq
  rw [numbers, numbers'] at same
  obtain ⟨rfl, rest⟩ := Prod.mk.inj (toLex.injective same)
  obtain ⟨rfl, rfl⟩ := Prod.mk.inj (toLex.injective rest)
  have read : parseSemVer v.toList = parseSemVer w.toList := by
    rw [parseSemVer_written (semverPattern_eq_some_iff.mp matched),
      parseSemVer_written (semverPattern_eq_some_iff.mp matched'),
      atoiValue_congr (hx.trans hx'.symm), atoiValue_congr (hy.trans hy'.symm), atoiValue_congr (hz.trans hz'.symm)]
  rw [compareSemVer, read]
  exact compareSemVer_self (v := w)

/-- A version that is not above another has less numbers, unless they compare alike. -/
theorem below_of_not_precedes (read : compareSemVer v w = .lt) (h : ¬Precedes w v) : Below v w := by
  refine ⟨read, fun p q hp hq => ?_⟩
  have le : p ≤ q := not_lt.mp fun less => h ⟨q, p, hq, hp, less⟩
  rcases Prod.Lex.le_iff.mp le with less | ⟨same, -⟩
  · exact less
  · rw [compareSemVer_of_numbers hp hq same] at read
    cases read

/-! ### When the selection is sound -/

/-- A version that nothing is greater than is selected from the tags with its own in front. -/
theorem selectRelease_front {tag : String} (version : tagVersion tag = some v)
    (greatest : ∀ w ∈ considered tags, compareSemVer w v ≠ .gt) :
    selectRelease (tag :: tags) = v := by
  have first : selectRelease (tag :: tags) = maxVersion v (considered tags) := by
    rw [selectRelease, List.filterMap_cons_some version, maxVersion, if_pos (Or.inl rfl)]
    rfl
  rw [first, maxVersion_eq_self (tagVersion_spec version).1 greatest]

theorem distinguished_of_sound (sound : Sound tags) : Distinguished tags := by
  refine or_iff_not_imp_left.mpr fun some_ => ⟨selectRelease tags, selectRelease_mem some_, fun v hv other => ?_⟩
  refine below_of_not_precedes ?_ (sound.maximal v hv)
  cases compared : compareSemVer v (selectRelease tags) with
  | lt => rfl
  | gt =>
    have notGreater := selectRelease_isLE hv
    rw [compared] at notGreater
    cases notGreater
  | eq =>
    -- listed first, it would be selected
    obtain ⟨tag, listed, version⟩ := List.mem_filterMap.mp hv
    have front := List.perm_cons_erase listed
    have greatest : ∀ w ∈ considered (tags.erase tag), compareSemVer w v ≠ .gt := by
      intro w hw greater
      have below : (compareSemVer w (selectRelease tags)).isLE := by
        obtain ⟨tag', listed', version'⟩ := List.mem_filterMap.mp hw
        exact selectRelease_isLE (List.mem_filterMap.mpr ⟨tag', List.mem_of_mem_erase listed', version'⟩)
      rw [← Std.TransCmp.congr_right compared, greater] at below
      cases below
    exact absurd ((selectRelease_front version greatest).symm.trans (sound.order _ front)) other

theorem selectRelease_eq {t : String} (ht : t ∈ considered tags) (above : ∀ v ∈ considered tags, v ≠ t → Below v t) :
    selectRelease tags = t := by
  by_contra other
  have below := above _ (selectRelease_mem (List.ne_nil_of_mem ht)) other
  have notGreater := selectRelease_isLE ht
  rw [Std.OrientedCmp.gt_iff_lt.mpr below.read] at notGreater
  cases notGreater

/-- The selection does not depend on the order and is of greatest precedence exactly when one version has
    greater numbers than all others. -/
theorem selection_sound_iff (tags : List String) : Sound tags ↔ Distinguished tags := by
  refine ⟨distinguished_of_sound, ?_⟩
  rintro (none_ | ⟨t, ht, above⟩)
  · constructor
    · intro tags' perm
      have none' : considered tags' = [] := List.Perm.nil_eq (none_ ▸ perm.filterMap tagVersion) |>.symm
      change maxVersion "" (considered tags') = maxVersion "" (considered tags)
      rw [none_, none']
    · rw [none_]
      exact fun v hv => (by cases hv)
  · have selected := selectRelease_eq ht above
    constructor
    · intro tags' perm
      have looked : ∀ v, v ∈ considered tags' ↔ v ∈ considered tags := fun v => (perm.filterMap tagVersion).mem_iff.symm
      rw [selected]
      exact selectRelease_eq ((looked t).mpr ht) fun v hv => above v ((looked v).mp hv)
    · rw [selected]
      rintro v hv ⟨p, q, hp, hq, less⟩
      rcases eq_or_ne v t with rfl | other
      · rw [hp] at hq
        obtain rfl := Option.some.inj hq
        exact lt_irrefl p less
      · exact lt_asymm less (Prod.Lex.lt_iff.mpr (Or.inl ((above v hv other).written q p hq hp)))

/-- Listed before its final version, a pre-release is selected; listed after it, it is not. -/
theorem preRelease_selected : selectRelease ["agent-v1.0.0-rc", "agent-v1.0.0"] = "1.0.0-rc" ∧
    selectRelease ["agent-v1.0.0", "agent-v1.0.0-rc"] = "1.0.0" ∧ Precedes "1.0.0-rc" "1.0.0" ∧
    ¬Sound ["agent-v1.0.0-rc", "agent-v1.0.0"] := by
  have selected : selectRelease ["agent-v1.0.0-rc", "agent-v1.0.0"] = "1.0.0-rc" ∧
      selectRelease ["agent-v1.0.0", "agent-v1.0.0-rc"] = "1.0.0" := by decide +kernel
  have precedes : Precedes "1.0.0-rc" "1.0.0" :=
    ⟨_, _, rfl, rfl, Prod.Lex.lt_iff.mpr (Or.inr ⟨rfl, WithTop.coe_lt_top _⟩)⟩
  refine ⟨selected.1, selected.2, precedes, fun sound => ?_⟩
  have same := sound.order _ (List.Perm.swap "agent-v1.0.0" "agent-v1.0.0-rc" [])
  rw [selected.1, selected.2] at same
  exact absurd same (by decide)

end ReleaseSelection
end DatrixOps
