import Mathlib.Data.List.Perm.Basic
import DatrixOps.Alert.Condition

/-! Which entry of a snapshot a container or service rule is about. The loop stops at the first entry whose
    name contains the target, and a name that is the target counts no more than one that merely contains it. -/

namespace DatrixOps
namespace ListingOrder
open Golang

/-! ### First match -/

section
variable {α β : Type} {named : α → Bool} {verdict : α → β} {missing : β}

/-- The verdict about the first entry that is named. -/
def firstMatch (named : α → Bool) (verdict : α → β) (missing : β) (l : List α) : β :=
  match l.find? named with
  | some a => verdict a
  | none => missing

theorem firstMatch_none {l : List α} (h : ∀ a ∈ l, named a = false) : firstMatch named verdict missing l = missing := by
  have none_ : l.find? named = none := List.find?_eq_none.mpr fun a ha => by simp [h a ha]
  rw [firstMatch, none_]

theorem firstMatch_cons {a : α} {l : List α} (h : named a = true) :
    firstMatch named verdict missing (a :: l) = verdict a := by
  rw [firstMatch, List.find?_cons_of_pos h]

theorem firstMatch_of_agree {l : List α} {a : α} (ha : a ∈ l) (hn : named a = true)
    (agree : ∀ x ∈ l, named x = true → verdict x = verdict a) : firstMatch named verdict missing l = verdict a := by
  obtain ⟨b, hb⟩ := Option.isSome_iff_exists.mp (List.find?_isSome.mpr ⟨a, ha, hn⟩)
  rw [firstMatch, hb]
  exact agree b (List.mem_of_find?_eq_some hb) (List.find?_some hb)

/-- An entry can be moved to the front. -/
theorem perm_front {l : List α} {a : α} (ha : a ∈ l) : ∃ rest, l.Perm (a :: rest) := by
  obtain ⟨s, t, rfl⟩ := List.append_of_mem ha
  exact ⟨s ++ t, List.perm_middle⟩

/-- The first match does not depend on the order exactly when the named entries agree. -/
theorem firstMatch_perm_iff {l : List α} :
    (∀ l', l.Perm l' → firstMatch named verdict missing l = firstMatch named verdict missing l') ↔
      ∀ a ∈ l, ∀ b ∈ l, named a = true → named b = true → verdict a = verdict b := by
  constructor
  · intro same a ha b hb na nb
    obtain ⟨s, hs⟩ := perm_front ha
    obtain ⟨t, ht⟩ := perm_front hb
    calc verdict a = firstMatch named verdict missing l := by rw [same _ hs, firstMatch_cons na]
      _ = verdict b := by rw [same _ ht, firstMatch_cons nb]
  · intro agree l' perm
    by_cases some_ : ∃ a ∈ l, named a = true
    · obtain ⟨a, ha, na⟩ := some_
      rw [firstMatch_of_agree ha na fun x hx nx => agree x hx a ha nx na,
        firstMatch_of_agree (perm.subset ha) na fun x hx nx => agree x (perm.symm.subset hx) a ha nx na]
    · push Not at some_
      have unnamed : ∀ a ∈ l, named a = false := fun a ha => Bool.eq_false_iff.mpr (some_ a ha)
      rw [firstMatch_none unnamed, firstMatch_none fun a ha => unnamed a (perm.symm.subset ha)]

end

/-! ### What a rule about an entry promises -/

/-- A kind of snapshot entry: how a snapshot is read, when an entry's name is the target, what an entry's
    own verdict is, and what the rule answers. -/
structure Listing (α : Type) where
  decode : Json → Option (List α)
  exact : String → α → Bool
  own : α → Bool
  evaluate : String → Option Json → Verdict

/-- For this target the verdict about the entries does not depend on the order they are listed in, and an
    entry with just that name decides it. -/
structure Listing.Sound {α : Type} (k : Listing α) (target : String) (entries : List α) : Prop where
  order : ∀ s s' entries', k.decode s = some entries → k.decode s' = some entries' → entries.Perm entries' →
    emptySnapshot (some s) = emptySnapshot (some s') → k.evaluate target (some s) = k.evaluate target (some s')
  decides : ∀ s, k.decode s = some entries → ∀ a ∈ entries, k.exact target a = true →
    k.evaluate target (some s) = .of (k.own a)

/-- The entries that the loop takes for the target and those with just its name have one verdict; with no
    entry to take, it is the one of a missing entry. -/
structure Unambiguous {α : Type} (named exact own : α → Bool) (entries : List α) : Prop where
  agree : ∀ a ∈ entries, ∀ b ∈ entries, (named a || exact a) = true → named b = true → own a = own b
  missing : (∀ b ∈ entries, named b = false) → ∀ a ∈ entries, exact a = true → own a = true

/-- An entry with just the name of a target that names nothing is down when some entry is broken, and only
    then. -/
def Settled {α : Type} (exact own broken : α → Bool) (entries : List α) : Prop :=
  ∀ a ∈ entries, exact a = true → (own a = true ↔ ∃ b ∈ entries, broken b = true)

section
variable {α : Type} {k : Listing α} {target : String} {entries : List α}

theorem of_inj {a b : Bool} (h : Verdict.of a = Verdict.of b) : a = b := congrArg Verdict.firing h

theorem sound_iff_unambiguous {named : α → Bool}
    (encodes : ∀ l, ∃ s, k.decode s = some l ∧ emptySnapshot (some s) = false)
    (answers : ∀ s l, k.decode s = some l → k.evaluate target (some s) = .of (firstMatch named k.own true l)) :
    k.Sound target entries ↔ Unambiguous named (k.exact target) k.own entries := by
  constructor
  · intro sound
    obtain ⟨s, hs, full⟩ := encodes entries
    have order : ∀ l', entries.Perm l' → firstMatch named k.own true entries = firstMatch named k.own true l' := by
      intro l' perm
      obtain ⟨s', hs', full'⟩ := encodes l'
      have same := sound.order s s' l' hs hs' perm (full.trans full'.symm)
      rw [answers s _ hs, answers s' _ hs'] at same
      exact of_inj same
    have decides : ∀ a ∈ entries, k.exact target a = true → firstMatch named k.own true entries = k.own a := by
      intro a ha he
      have decided := sound.decides s hs a ha he
      rw [answers s _ hs] at decided
      exact of_inj decided
    have agree := firstMatch_perm_iff.mp order
    refine ⟨fun a ha b hb na nb => ?_, fun none_ a ha he => ?_⟩
    · rcases Bool.or_eq_true_iff.mp na with na | ea
      · exact agree a ha b hb na nb
      · rw [← decides a ha ea]
        exact firstMatch_of_agree hb nb fun x hx nx => agree x hx b hb nx nb
    · rw [← decides a ha he]
      exact firstMatch_none none_
  · intro clear
    have agree : ∀ a ∈ entries, ∀ b ∈ entries, named a = true → named b = true → k.own a = k.own b :=
      fun a ha b hb na nb => clear.agree a ha b hb (by simp [na]) nb
    refine ⟨fun s s' l' hs hs' perm _ => ?_, fun s hs a ha he => ?_⟩
    · rw [answers s _ hs, answers s' _ hs', firstMatch_perm_iff.mpr agree l' perm]
    · rw [answers s _ hs]
      congr 1
      by_cases some_ : ∃ b ∈ entries, named b = true
      · obtain ⟨b, hb, nb⟩ := some_
        rw [firstMatch_of_agree hb nb fun x hx nx => agree x hx b hb nx nb]
        exact (clear.agree a ha b hb (by simp [he]) nb).symm
      · push Not at some_
        have unnamed : ∀ b ∈ entries, named b = false := fun b hb => Bool.eq_false_iff.mpr (some_ b hb)
        rw [firstMatch_none unnamed, clear.missing unnamed a ha he]

theorem emptySnapshot_obj {s : Json} (h : emptySnapshot (some s) = true) : s = .obj [] := by
  cases s with
  | obj fields =>
    cases fields with
    | nil => rfl
    | cons => cases h
  | _ => cases h

theorem sound_iff_settled {broken : α → Bool} (encodes : ∀ l, ∃ s, k.decode s = some l ∧ emptySnapshot (some s) = false)
    (bare : k.decode (.obj []) = some [])
    (answers : ∀ s l, k.decode s = some l → emptySnapshot (some s) = false →
      k.evaluate target (some s) = .of (l.any broken)) :
    k.Sound target entries ↔ Settled (k.exact target) k.own broken entries := by
  constructor
  · intro sound a ha he
    obtain ⟨s, hs, full⟩ := encodes entries
    have decided := sound.decides s hs a ha he
    rw [answers s _ hs full] at decided
    rw [← of_inj decided, List.any_eq_true]
  · intro settled
    refine ⟨fun s s' l' hs hs' perm same => ?_, fun s hs a ha he => ?_⟩
    · cases full : emptySnapshot (some s) with
      | true => rw [emptySnapshot_obj full, emptySnapshot_obj (same.symm.trans full)]
      | false =>
        rw [answers s _ hs full, answers s' _ hs' (same.symm.trans full), perm.any_eq]
    · have full : emptySnapshot (some s) = false := by
        refine Bool.eq_false_iff.mpr fun empty => ?_
        rw [emptySnapshot_obj empty, bare] at hs
        rw [← Option.some.inj hs] at ha
        cases ha
      rw [answers s _ hs full]
      congr 1
      exact Bool.eq_iff_iff.mpr (List.any_eq_true.trans (settled a ha he).symm)

end

/-! ### Containers and services -/

/-- The containers of a snapshot, as a rule on one of them reads them. -/
def containers (p : Platform) : Listing DockerContainer where
  decode := decodeContainers
  exact target c := trimPrefix ['/'] (p.toLower.toLower c.name.toList) ==
    trimPrefix ['/'] (p.toLower.toLower (trimSpace target.toList))
  own c := c.down p
  evaluate := evaluateContainerCondition p

/-- The services of a snapshot, as a rule on one of them reads them. -/
def services (p : Platform) : Listing SystemService where
  decode := decodeServices
  exact target s := trimSuffix ".service".toList (cleanText p s.name) == trimSuffix ".service".toList
    (cleanText p target)
  own s := !s.running p
  evaluate := evaluateServiceCondition p

/-- A container as an agent writes it. -/
def encodeContainer (c : DockerContainer) : Json :=
  .obj [("name", .str c.name), ("state", .str c.state), ("status", .str c.status)]

/-- The snapshot with these containers. -/
def containersOf (l : List DockerContainer) : Json := .obj [("docker_containers", .arr (l.map encodeContainer))]

/-- A service as an agent writes it. -/
def encodeService (s : SystemService) : Json :=
  .obj [("name", .str s.name), ("display_name", .str s.displayName), ("status", .str s.status),
    ("sub_status", .str s.subStatus)]

theorem decodeContainer_encode (c : DockerContainer) : decodeContainer (encodeContainer c) = some c := by
  have keys : Json.names "name" "name" = true ∧ Json.names "state" "name" = false ∧ Json.names "status" "name" = false ∧
      Json.names "name" "state" = false ∧ Json.names "state" "state" = true ∧ Json.names "status" "state" = false ∧
      Json.names "name" "status" = false ∧ Json.names "state" "status" = false ∧
      Json.names "status" "status" = true := by
    decide
  simp [decodeContainer, encodeContainer, Json.decodeStruct, Json.field, Json.decodeString, keys]

theorem decodeService_encode (s : SystemService) : decodeService (encodeService s) = some s := by
  have keys : ∀ a ∈ ["name", "display_name", "status", "sub_status"],
    ∀ b ∈ ["name", "display_name", "status", "sub_status"],
      Json.names a b = decide (a = b) := by decide
  simp only [List.forall_mem_cons, List.not_mem_nil, false_implies, implies_true, and_true] at keys
  simp [decodeService, encodeService, Json.decodeStruct, Json.field, Json.decodeString, keys]

theorem mapM_encode {α : Type} {encode : α → Json} {decode : Json → Option α}
    (inverse : ∀ a, decode (encode a) = some a) :
    ∀ l : List α, (l.map encode).mapM decode = some l
  | [] => rfl
  | a :: l => by simp [List.mapM_cons, inverse, mapM_encode inverse l]

theorem encodes_containers {p : Platform} (l : List DockerContainer) :
    ∃ s, (containers p).decode s = some l ∧ emptySnapshot (some s) = false := by
  have key : Json.names "docker_containers" "docker_containers" = true := by decide
  refine ⟨containersOf l, ?_, rfl⟩
  simp [containersOf, containers, decodeContainers, Json.decodeStruct, Json.field, Json.decodeSlice, key,
    mapM_encode decodeContainer_encode]

theorem encodes_services {p : Platform} (l : List SystemService) :
    ∃ s, (services p).decode s = some l ∧ emptySnapshot (some s) = false := by
  have key : Json.names "services" "services" = true := by decide
  refine ⟨.obj [("services", .arr (l.map encodeService))], ?_, rfl⟩
  simp [services, decodeServices, Json.decodeStruct, Json.field, Json.decodeSlice, key,
    mapM_encode decodeService_encode]

/-- The condition on a target and the containers of a snapshot. -/
def ContainersClear (p : Platform) (target : String) (entries : List DockerContainer) : Prop :=
  let text := p.toLower.toLower (trimSpace target.toList)
  if text ≠ [] then Unambiguous (DockerContainer.named p text) ((containers p).exact target) (containers p).own entries
  else Settled ((containers p).exact target) (containers p).own (DockerContainer.down p) entries

/-- The condition on a target and the services of a snapshot. -/
def ServicesClear (p : Platform) (target : String) (entries : List SystemService) : Prop :=
  let text := cleanText p target
  if trimSuffix ".service".toList text ≠ [] then
    Unambiguous (SystemService.named p text) ((services p).exact target) (services p).own entries
  else Settled ((services p).exact target) (services p).own (SystemService.broken p) entries

section
variable {p : Platform} {target : String}

theorem trimSpace_ne_nil_of_lower {s : List Char} (h : p.toLower.toLower s ≠ []) : s ≠ [] := by
  rintro rfl
  exact h rfl

theorem containers_answer (text : p.toLower.toLower (trimSpace target.toList) ≠ []) (s : Json)
    (l : List DockerContainer)
    (hs : (containers p).decode s = some l) :
    (containers p).evaluate target (some s) =
      .of (firstMatch (DockerContainer.named p (p.toLower.toLower (trimSpace target.toList)))
        (containers p).own true l) := by
  have decoded : decodeContainers s = some l := hs
  change evaluateContainerCondition p target (some s) = _
  unfold evaluateContainerCondition
  split
  · rename_i empty
    obtain rfl := emptySnapshot_obj empty
    obtain rfl := Option.some.inj hs
    rw [if_pos (trimSpace_ne_nil_of_lower text)]
    rfl
  · simp only [Option.bind_some, decoded, if_pos text, firstMatch]
    cases l.find? (DockerContainer.named p (p.toLower.toLower (trimSpace target.toList))) <;> rfl

theorem containers_blank (text : p.toLower.toLower (trimSpace target.toList) = []) (s : Json) (l : List DockerContainer)
    (hs : (containers p).decode s = some l) (full : emptySnapshot (some s) = false) :
    (containers p).evaluate target (some s) = .of (l.any (DockerContainer.down p)) := by
  have decoded : decodeContainers s = some l := hs
  change evaluateContainerCondition p target (some s) = _
  unfold evaluateContainerCondition
  rw [full]
  simp [decoded, text]

theorem cleanText_ne_nil (text : trimSuffix ".service".toList (cleanText p target) ≠ []) :
    trimSpace target.toList ≠ [] := by
  intro blank
  refine text ?_
  rw [cleanText, blank]
  rfl

theorem services_answer (text : trimSuffix ".service".toList (cleanText p target) ≠ []) (s : Json)
    (l : List SystemService)
    (hs : (services p).decode s = some l) :
    (services p).evaluate target (some s) =
      .of (firstMatch (SystemService.named p (cleanText p target)) (services p).own true l) := by
  have decoded : decodeServices s = some l := hs
  change evaluateServiceCondition p target (some s) = _
  unfold evaluateServiceCondition
  split
  · rename_i empty
    obtain rfl := emptySnapshot_obj empty
    obtain rfl := Option.some.inj hs
    rw [if_pos (cleanText_ne_nil text)]
    rfl
  · simp only [Option.bind_some, decoded, if_pos text, firstMatch]
    cases l.find? (SystemService.named p (cleanText p target)) <;> rfl

theorem services_blank (text : trimSuffix ".service".toList (cleanText p target) = []) (s : Json)
    (l : List SystemService)
    (hs : (services p).decode s = some l) (full : emptySnapshot (some s) = false) :
    (services p).evaluate target (some s) = .of (l.any (SystemService.broken p)) := by
  have decoded : decodeServices s = some l := hs
  change evaluateServiceCondition p target (some s) = _
  unfold evaluateServiceCondition
  rw [full]
  simp only [Bool.false_eq_true, if_false, Option.bind_some, decoded, text, ne_eq, not_true_eq_false]

theorem containers_sound_iff {entries : List DockerContainer} :
    (containers p).Sound target entries ↔ ContainersClear p target entries := by
  dsimp only [ContainersClear]
  split
  · rename_i text
    exact sound_iff_unambiguous encodes_containers (containers_answer text)
  · rename_i text
    exact sound_iff_settled encodes_containers rfl (containers_blank (not_not.mp text))

theorem services_sound_iff {entries : List SystemService} :
    (services p).Sound target entries ↔ ServicesClear p target entries := by
  dsimp only [ServicesClear]
  split
  · rename_i text
    exact sound_iff_unambiguous encodes_services (services_answer text)
  · rename_i text
    exact sound_iff_settled encodes_services rfl (services_blank (not_not.mp text))

end

/-- A verdict about a named entry is independent of the listing order, and the one of an entry with just that
    name, exactly for the snapshots and targets that are clear. -/
theorem verdicts_sound_iff (p : Platform) (target : String) :
    (∀ entries, (containers p).Sound target entries ↔ ContainersClear p target entries) ∧
      ∀ entries, (services p).Sound target entries ↔ ServicesClear p target entries :=
  ⟨fun _ => containers_sound_iff, fun _ => services_sound_iff⟩

/-- A stopped container. -/
def webDb : DockerContainer := ⟨"web-db", "exited", ""⟩

/-- A running one, whose name is part of its name. -/
def web : DockerContainer := ⟨"web", "running", ""⟩

/-- A stopped `web-db` listed before a running `web` is what a rule on `web` sees. -/
theorem web_shadowed :
    ([webDb, web].map (·.name)).Nodup ∧ ¬(containers plainPlatform).Sound "web" [webDb, web] ∧
      evaluateContainerCondition plainPlatform "web" (some (containersOf [webDb, web])) = .of true ∧
      evaluateContainerCondition plainPlatform "web" (some (containersOf [web, webDb])) = .of false ∧
      (containers plainPlatform).exact "web" web = true ∧ (containers plainPlatform).own web = false := by
  have shadowed : evaluateContainerCondition plainPlatform "web" (some (containersOf [webDb, web])) =
    .of true := by decide
  have own : (containers plainPlatform).own web = false := by decide
  refine ⟨by decide, fun sound => ?_, shadowed, by decide, by decide, own⟩
  have decided := sound.decides (containersOf [webDb, web]) rfl web (by simp) (by decide)
  exact absurd (of_inj (shadowed.symm.trans decided)) (by rw [own]; decide)

end ListingOrder
end DatrixOps
