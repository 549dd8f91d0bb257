import DatrixOps.Release.Gate
import DatrixOps.Server.ReleaseProxy
import DatrixOps.Theorems.VerifiedUpdate

/-! Where the control plane passes agents on to when they ask it for the files of a release. The path says
    which version only when the layout has a directory for it. -/

namespace DatrixOps
open Golang Release Host

/-! ### Versions -/

variable {version : String}

theorem semver_split (plain : isSemver version) :
    ∃ major minor patch, split '.' version.toList = [major, minor, patch] ∧
    ∀ part ∈ [major, minor, patch], Digits part := by
  unfold isSemver at plain
  split at plain
  · rename_i major minor patch parts
    refine ⟨major, minor, patch, parts, fun part hpart => ?_⟩
    have digits := List.all_eq_true.mp plain part hpart
    simp only [Bool.and_eq_true, decide_eq_true_eq, List.all_eq_true] at digits
    exact digits
  · cases plain

/-- The characters of a version are digits and dots. -/
theorem semver_chars (plain : isSemver version) : ∀ c ∈ version.toList, c.isDigit = true ∨ c = '.' := by
  intro c hc
  obtain ⟨major, minor, patch, parts, digits⟩ := semver_split plain
  rcases (mem_of_mem_split hc : c = '.' ∨ ∃ part ∈ split '.' version.toList, c ∈ part) with dot_ | ⟨part, hpart, hc⟩
  · exact Or.inr dot_
  · rw [parts] at hpart
    exact Or.inl ((digits part hpart).2 c hc)

/-- It begins with a digit. -/
theorem semver_head (plain : isSemver version) : ∃ c cs, version.toList = c :: cs ∧ c.isDigit = true := by
  obtain ⟨major, minor, patch, parts, digits⟩ := semver_split plain
  have first : version.toList.takeWhile (· ≠ '.') = major := by
    rw [← split_headD, parts]
    rfl
  have some_ := (digits major (List.mem_cons_self ..)).1
  cases chars : version.toList with
  | nil =>
    rw [chars] at first
    exact absurd first.symm some_
  | cons c cs =>
    refine ⟨c, cs, rfl, (semver_chars plain c (by simp [chars])).resolve_right ?_⟩
    rintro rfl
    rw [chars] at first
    exact some_ first.symm

theorem not_isSpace_of_semver (plain : isSemver version) : ∀ c ∈ version.toList, isSpace c = false := by
  intro c hc
  rcases semver_chars plain c hc with digit | rfl
  · exact not_isSpace_of_isDigit digit
  · rfl

theorem trimmed_of_semver (plain : isSemver version) : trimmed version = version := by
  rw [trimmed, trimSpace_eq_self (not_isSpace_of_semver plain), String.ofList_toList]

theorem trimPrefix_of_head {p c : Char} {pre s : List Char} (other : p ≠ c) :
    trimPrefix (p :: pre) (c :: s) = c :: s := by
  refine if_neg fun h => other ?_
  obtain ⟨rest, hrest⟩ := h
  exact (List.cons.inj hrest).1

/-- A part that is a version, or a version after a `v`, names it. -/
theorem cleanedPart_semver (plain : isSemver version) : cleanedPart version.toList = version.toList ∧
    cleanedPart ('v' :: version.toList) = version.toList := by
  have keep := not_isSpace_of_semver plain
  obtain ⟨c, cs, chars, digit⟩ := semver_head plain
  unfold cleanedPart
  constructor
  · rw [trimSpace_eq_self keep, chars]
    change trimPrefix ['v'] (trimPrefix ('a' :: "gent-v".toList) (c :: cs)) = c :: cs
    rw [trimPrefix_of_head (ne_of_isDigit digit rfl).symm, trimPrefix_of_head (ne_of_isDigit digit rfl).symm]
  · have spaces : ∀ d ∈ 'v' :: version.toList, isSpace d = false := List.forall_mem_cons.mpr ⟨rfl, keep⟩
    rw [trimSpace_eq_self spaces]
    change trimPrefix ['v'] (trimPrefix ('a' :: "gent-v".toList) ('v' :: version.toList)) = version.toList
    rw [trimPrefix_of_head (by decide)]
    exact if_pos (List.prefix_append ['v'] _)

/-- The tag of a version is read as that version. -/
theorem tag_of_semver (plain : isSemver version) :
    trimPrefix ['v'] (trimPrefix "agent-v".toList version.toList) = version.toList := by
  obtain ⟨c, cs, chars, digit⟩ := semver_head plain
  rw [chars]
  change trimPrefix ['v'] (trimPrefix ('a' :: "gent-v".toList) (c :: cs)) = c :: cs
  rw [trimPrefix_of_head (ne_of_isDigit digit rfl).symm, trimPrefix_of_head (ne_of_isDigit digit rfl).symm]

/-! ### URLs -/

/-- Letters, digits, `.`, `-` and `_`, the first a letter or a digit. -/
def PlainSegment (s : String) : Prop :=
  ∃ c cs, s.toList = c :: cs ∧ isAlphanumeric c = true ∧ ∀ c ∈ cs, isAlphanumeric c = true ∨ c = '_' ∨ c = '.' ∨ c = '-'

/-- The URL of these segments below a base. -/
def below (base : String) (segments : List String) : String :=
  segments.foldl (fun url segment => url ++ "/" ++ segment) base

/-- What `net/url` does with plain segments below a base: it joins them with slashes, and one alone is a
relative reference. -/
structure Joins (rt : Runtime) (base : String) : Prop where
  join : ∀ segments segment, (∀ s ∈ segments, PlainSegment s) → PlainSegment segment →
    rt.joinPath (below base segments) segment = .ok (below base (segments ++ [segment]))
  relative : ∀ segment, PlainSegment segment → ∃ url, rt.parseURL segment = .ok url ∧ url.isAbs = false

/-- A file that an agent asks for. -/
inductive ReleaseFile where
  | manifest
  | signature
  | artifact (target : ReleaseTarget) (required : target ∈ requiredReleaseTargets)

namespace ReleaseFile

/-- The name of the file. -/
def name : ReleaseFile → String
  | manifest => "manifest.json"
  | signature => "manifest.sig"
  | artifact target _ => target.filename

/-- The URL that the agent derives. -/
def url (rt : Runtime) (base : String) (layout : Layout) (version : String) : ReleaseFile → Except String String
  | manifest => manifestURL rt base layout version
  | signature => signatureURL rt base layout version
  | artifact target _ => artifactURL rt base layout version target.filename

/-- The names of all of them. -/
def names : List String := "manifest.json" :: "manifest.sig" :: requiredReleaseTargets.map (·.filename)

theorem name_mem : ∀ file : ReleaseFile, file.name ∈ names
  | manifest => List.mem_cons_self ..
  | signature => List.mem_cons_of_mem _ (List.mem_cons_self ..)
  | artifact _ required => List.mem_cons_of_mem _ (List.mem_cons_of_mem _ (List.mem_map_of_mem required))

end ReleaseFile

/-- What the control plane finds in the path of a request below a base. -/
def pathBelow (base url : String) : Option (List Char) :=
  if (base ++ "/").toList <+: url.toList then some (url.toList.drop (base ++ "/").toList.length) else none

/-- The base that the agent takes from a task whose base ends in the route of the control plane. -/
def routedBase (site : String) : String := trimSlashes (trimmed (site ++ "/api/v1/agent-releases"))

/-- The file of a release among the assets of its tag. -/
def asset (version name : String) : String := releaseDownload ++ "agent-v" ++ version ++ "/" ++ name

/-- The URL derived for a file is redirected to that file of the version. -/
def Redirected (rt : Runtime) (site : String) (layout : Layout) (version : String) (file : ReleaseFile) (h : AgentApi)
    (latestOnline : String) : Prop :=
  ∃ url path, file.url rt (site ++ "/api/v1/agent-releases") layout version = .ok url ∧
    pathBelow (routedBase site) url = some path ∧
    h.serveAgentRelease latestOnline path = some (asset version file.name)

/-- The version whose tag is used when no part of the path names one. -/
def wantedVersion (h : AgentApi) (latestOnline : String) : List Char :=
  let wanted := h.getDesiredAgentVersion latestOnline
  trimPrefix ['v'] (trimPrefix "agent-v".toList (if wanted = "" then "1.5.10" else wanted).toList)

/-- The directories of a version below the base. -/
def directories (layout : Layout) (version : String) : List String :=
  match layout with
  | .default => [version]
  | .github => ["v" ++ version]
  | .legacyDirect => []

section Derived
variable {rt : Runtime} {site : String} {layout : Layout}

theorem isAlphanumeric_of_isDigit {c : Char} (h : c.isDigit = true) : isAlphanumeric c = true := by
  simp only [Char.isDigit, Bool.and_eq_true, decide_eq_true_eq] at h
  simp only [isAlphanumeric, Bool.or_eq_true, Bool.and_eq_true, decide_eq_true_eq]
  exact Or.inr h

theorem plainSegment_of_semver (plain : isSemver version) : PlainSegment version ∧ PlainSegment ("v" ++ version) := by
  have chars : ∀ c ∈ version.toList, isAlphanumeric c = true ∨ c = '_' ∨ c = '.' ∨ c = '-' := fun c hc =>
    (semver_chars plain c hc).imp isAlphanumeric_of_isDigit fun dot_ => Or.inr (Or.inl dot_)
  obtain ⟨c, cs, split_, digit⟩ := semver_head plain
  refine ⟨⟨c, cs, split_, isAlphanumeric_of_isDigit digit, fun d hd => chars d (by simp [split_, hd])⟩, 'v',
    version.toList, ?_, rfl, chars⟩
  rw [String.toList_append]
  rfl

theorem plainSegment_of_releaseFilename {name : String} (h : releaseFilename name.toList = true) :
    PlainSegment name := by
  cases chars : name.toList with
  | nil =>
    rw [chars] at h
    cases h
  | cons c cs =>
    rw [chars] at h
    simp only [releaseFilename, Bool.and_eq_true, List.all_eq_true, Bool.or_eq_true, decide_eq_true_eq] at h
    exact ⟨c, cs, chars, h.1.1, fun d hd => by simpa only [or_assoc] using h.2 d hd⟩

theorem mem_trimSpace {s : List Char} {c : Char} (hc : c ∈ s) (keep : isSpace c = false) : c ∈ trimSpace s := by
  have stays : ∀ {t : List Char}, c ∈ t → c ∈ t.dropWhile isSpace := by
    intro t ht
    rw [← List.takeWhile_append_dropWhile (p := isSpace) (l := t), List.mem_append] at ht
    refine ht.resolve_left fun dropped => ?_
    rw [List.mem_takeWhile_imp dropped] at keep
    cases keep
  exact List.mem_reverse.mpr (stays (List.mem_reverse.mpr (stays hc)))

theorem routedBase_ne : routedBase site ≠ "" := by
  intro empty
  have chars : (trimSpace (site ++ "/api/v1/agent-releases").toList).rdropWhile (· = '/') = [] := by
    have none_ := congrArg String.toList empty
    simp only [routedBase, trimSlashes, trimmed, String.toList_ofList] at none_
    exact none_
  have letter : 's' ∈ trimSpace (site ++ "/api/v1/agent-releases").toList := by
    refine mem_trimSpace ?_ rfl
    rw [String.toList_append, List.mem_append]
    exact Or.inr (by decide)
  have slash := List.rdropWhile_eq_nil_iff.mp chars 's' letter
  cases of_decide_eq_true slash

/-- The directory below which the agent looks for the files of a version. -/
theorem artifactBaseURL_eq (joins : Joins rt (routedBase site)) (plain : isSemver version) :
    artifactBaseURL rt (site ++ "/api/v1/agent-releases") layout version =
      .ok (below (routedBase site) (directories layout version)) := by
  have base : trimSlashes (trimmed (site ++ "/api/v1/agent-releases")) = routedBase site := rfl
  have same := trimmed_of_semver plain
  have some_ : version ≠ "" := by
    rintro rfl
    exact absurd plain (by decide)
  unfold artifactBaseURL
  simp only [base, if_neg routedBase_ne, versionDir, same, if_pos plain]
  cases layout with
  | default =>
    simp only [bind, pure, Except.bind, Except.pure, if_neg some_]
    exact joins.join [] version nofun (plainSegment_of_semver plain).1
  | github =>
    have some_ : "v" ++ version ≠ "" := by simp
    simp only [bind, pure, Except.bind, Except.pure, if_neg some_]
    exact joins.join [] ("v" ++ version) nofun (plainSegment_of_semver plain).2
  | legacyDirect => rfl

theorem plainSegment_directories (plain : isSemver version) : ∀ s ∈ directories layout version, PlainSegment s := by
  have both := plainSegment_of_semver plain
  cases layout with
  | default => exact List.forall_mem_singleton.mpr both.1
  | github => exact List.forall_mem_singleton.mpr both.2
  | legacyDirect => exact nofun

theorem releaseFilename_names : ∀ name ∈ ReleaseFile.names, releaseFilename name.toList = true ∧
    name.toList.all (fun c => !isSpace c) = true := by
  decide

/-- The URL derived for a file is that of its name below the directory of the version. -/
theorem url_eq (joins : Joins rt (routedBase site)) (plain : isSemver version) (file : ReleaseFile) :
    file.url rt (site ++ "/api/v1/agent-releases") layout version =
      .ok (below (routedBase site) (directories layout version ++ [file.name])) := by
  obtain ⟨filename, spaces⟩ := releaseFilename_names file.name file.name_mem
  have segment := plainSegment_of_releaseFilename filename
  have joined := joins.join (directories layout version) file.name (plainSegment_directories plain) segment
  have base : artifactBaseURL rt (site ++ "/api/v1/agent-releases") layout version =
      .ok (below (routedBase site) (directories layout version)) :=
    artifactBaseURL_eq joins plain
  cases file with
  | manifest =>
    simp only [ReleaseFile.url, manifestURL, base, wrap, Except.mapError, bind, Except.bind]
    exact joined
  | signature =>
    simp only [ReleaseFile.url, signatureURL, base, wrap, Except.mapError, bind, Except.bind]
    exact joined
  | artifact target required =>
    obtain ⟨url, parsed, relative⟩ := joins.relative target.filename segment
    have same : trimmed target.filename = target.filename := by
      rw [trimmed, trimSpace_eq_self fun c hc => by simpa using List.all_eq_true.mp spaces c hc, String.ofList_toList]
    have some_ : target.filename ≠ "" := by
      intro empty
      obtain ⟨c, cs, chars, -⟩ := segment
      rw [show (ReleaseFile.artifact target required).name = target.filename from rfl, empty] at chars
      cases chars
    have joined : rt.joinPath (below (routedBase site) (directories layout version)) target.filename = _ := joined
    simp only [ReleaseFile.url, artifactURL, same, if_neg some_, parsed, relative, base, wrap, Except.mapError, bind,
      pure, Except.bind,
      Except.pure, joined, Bool.false_eq_true, if_false]

end Derived

/-! ### Redirects -/

section Served
variable {h : AgentApi} {latestOnline : String} {dir name : List Char}

theorem no_slash_of_plainSegment {s : String} (h : PlainSegment s) : '/' ∉ s.toList := by
  obtain ⟨c, cs, chars, first, rest⟩ := h
  rw [chars, List.mem_cons]
  rintro (rfl | hc)
  · exact absurd first (by decide)
  · exact absurd (rest _ hc) (by decide)

theorem trim_path {dir name : List Char} (hd : '/' ∉ dir) (hn : '/' ∉ name) (some_ : dir ≠ []) (named : name ≠ []) :
    trim ['/'] (dir ++ '/' :: name) = dir ++ '/' :: name := by
  have starts : ∀ {s t : List Char}, '/' ∉ s → s ≠ [] → (s ++ t).dropWhile (· ∈ ['/']) = s ++ t := by
    intro s t hs some_
    obtain ⟨c, cs, rfl⟩ := List.exists_cons_of_ne_nil some_
    refine List.dropWhile_cons_of_neg ?_
    have other : c ≠ '/' := fun same => hs (by simp [same])
    simp [other]
  have back : (dir ++ '/' :: name).reverse = name.reverse ++ ('/' :: dir.reverse) := by simp
  rw [trim, starts hd some_, back, starts (by simpa using hn) (by simpa using named), ← back, List.reverse_reverse]

/-- What is served for a file in a directory that names a version, and for one in no directory. -/
theorem serve_directory {s n : String} (hs : PlainSegment s) (hn : releaseFilename n.toList = true)
    (plain : isSemver version)
    (names : cleanedPart s.toList = version.toList) :
      h.serveAgentRelease latestOnline (s.toList ++ '/' :: n.toList) = some (asset version n) := by
  have segment := plainSegment_of_releaseFilename hn
  have dirSome : s.toList ≠ [] := by
    obtain ⟨c, cs, chars, -⟩ := hs
    simp [chars]
  obtain ⟨c, cs, chars, first, -⟩ := segment
  have nameSome : n.toList ≠ [] := by simp [chars]
  have slash := no_slash_of_plainSegment (plainSegment_of_releaseFilename hn)
  have parts : split '/' (s.toList ++ '/' :: n.toList) = [s.toList, n.toList] := by
    have last := split_append_of_not_mem (t := []) slash
    rw [List.append_nil] at last
    rw [split_append_cons (no_slash_of_plainSegment hs), last, split, List.headD_cons, List.append_nil, List.tail_cons]
  have dots : n.toList ≠ ['.'] ∧ n.toList ≠ ['.', '.'] := by
    rw [chars]
    constructor
    · intro same
      rw [(List.cons.inj same).1] at first
      exact absurd first (by decide)
    · intro same
      rw [(List.cons.inj same).1] at first
      exact absurd first (by decide)
  obtain ⟨major, minor, patch, three, -⟩ := semver_split plain
  have found : (([s.toList, n.toList].map cleanedPart).find? fun cleaned => (split '.' cleaned).length = 3) =
      some version.toList := by
    rw [List.map_cons, names]
    exact List.find?_cons_of_pos (by rw [three]; rfl)
  unfold AgentApi.serveAgentRelease
  simp only [trim_path (no_slash_of_plainSegment hs) slash dirSome nameSome, parts]
  rw [if_neg (by simp), List.getLastD_cons, List.getLastD_cons, List.getLastD_nil,
    if_neg (by simp [hn, dots.1, dots.2]), found, Option.getD_some,
    tag_of_semver plain]
  simp only [asset, String.ofList_append, String.ofList_toList, String.append_assoc]

theorem names_unversioned : ∀ name ∈ ReleaseFile.names, (split '.' (cleanedPart name.toList)).length ≠ 3 := by decide

theorem serve_bare {n : String} (hn : n ∈ ReleaseFile.names) : h.serveAgentRelease latestOnline n.toList =
    some (releaseDownload ++ "agent-v" ++ String.ofList (wantedVersion h latestOnline) ++ "/" ++ n) := by
  have filename := (releaseFilename_names n hn).1
  have segment := plainSegment_of_releaseFilename filename
  have slash := no_slash_of_plainSegment segment
  obtain ⟨c, cs, chars, first, -⟩ := segment
  have parts : split '/' n.toList = [n.toList] := by
    have last := split_append_of_not_mem (t := []) slash
    rw [List.append_nil] at last
    rw [last, split, List.headD_cons, List.append_nil, List.tail_cons]
  have trim_ : trim ['/'] n.toList = n.toList := trim_eq_self fun c hc => by
    simp only [List.mem_singleton]
    rintro rfl
    exact slash hc
  have dots : n.toList ≠ ['.'] ∧ n.toList ≠ ['.', '.'] := by
    rw [chars]
    constructor
    · intro same
      rw [(List.cons.inj same).1] at first
      exact absurd first (by decide)
    · intro same
      rw [(List.cons.inj same).1] at first
      exact absurd first (by decide)
  have none_ : (([n.toList].map cleanedPart).find? fun cleaned => (split '.' cleaned).length = 3) = none := by
    rw [List.map_singleton, List.find?_singleton, if_neg (by simpa using names_unversioned n hn)]
  unfold AgentApi.serveAgentRelease
  simp only [trim_, parts]
  rw [if_neg (by simp [chars]), List.getLastD_cons, List.getLastD_nil, if_neg (by simp [filename, dots.1, dots.2]),
    none_, Option.getD_none]
  simp only [wantedVersion, String.ofList_append, String.ofList_toList, String.append_assoc]

theorem pathBelow_eq {base : String} {rest : String} : pathBelow base (base ++ "/" ++ rest) = some rest.toList := by
  unfold pathBelow
  rw [String.toList_append (s := base ++ "/"), if_pos (List.prefix_append ..), List.drop_left]

theorem pathBelow_two {base x y : String} :
    pathBelow base (base ++ "/" ++ x ++ "/" ++ y) = some (x.toList ++ '/' :: y.toList) := by
  have joined : base ++ "/" ++ x ++ "/" ++ y = base ++ "/" ++ (x ++ "/" ++ y) := by simp only [String.append_assoc]
  rw [joined, pathBelow_eq, String.toList_append, String.toList_append, List.append_assoc]
  rfl

end Served

/-- The files of a release are redirected to the tag of the version they were asked for exactly when the
    layout has a directory for it or the version wanted is that one. -/
theorem release_redirected_iff {rt : Runtime} {site : String} (joins : Joins rt (routedBase site)) {layout : Layout}
    (plain : isSemver version) {file : ReleaseFile} {h : AgentApi} {latestOnline : String} :
    Redirected rt site layout version file h latestOnline ↔
      layout ≠ .legacyDirect ∨ wantedVersion h latestOnline = version.toList := by
  have filename := (releaseFilename_names file.name file.name_mem).1
  have url : file.url rt (site ++ "/api/v1/agent-releases") layout version =
      .ok (below (routedBase site) (directories layout version ++ [file.name])) := url_eq joins plain file
  have cleaned := cleanedPart_semver plain
  have segments := plainSegment_of_semver plain
  cases layout with
  | default =>
    refine iff_of_true ⟨_, _, url, ?_, serve_directory segments.1 filename plain cleaned.1⟩ (Or.inl (by decide))
    change pathBelow _ (routedBase site ++ "/" ++ version ++ "/" ++ file.name) = _
    exact pathBelow_two
  | github =>
    have names : cleanedPart ("v" ++ version).toList = version.toList := by
      rw [String.toList_append]
      exact cleaned.2
    refine iff_of_true ⟨_, _, url, ?_, serve_directory segments.2 filename plain names⟩ (Or.inl (by decide))
    change pathBelow _ (routedBase site ++ "/" ++ ("v" ++ version) ++ "/" ++ file.name) = _
    exact pathBelow_two
  | legacyDirect =>
    have path : pathBelow (routedBase site)
      (below (routedBase site) (directories .legacyDirect version ++ [file.name])) =
        some file.name.toList := pathBelow_eq
    have served : h.serveAgentRelease latestOnline file.name.toList =
        some (releaseDownload ++ "agent-v" ++ String.ofList (wantedVersion h latestOnline) ++ "/" ++ file.name) :=
          serve_bare file.name_mem
    constructor
    · rintro ⟨_, _, derived, found, redirected⟩
      obtain rfl := Except.ok.inj (url.symm.trans derived)
      obtain rfl := Option.some.inj (path.symm.trans found)
      rw [served] at redirected
      have same := congrArg String.toList (Option.some.inj redirected)
      simp only [asset, String.toList_append, String.toList_ofList, List.append_assoc,
        List.append_cancel_left_eq] at same
      rw [← List.append_assoc, ← List.append_assoc version.toList, List.append_cancel_right_eq,
        List.append_cancel_right_eq] at same
      exact Or.inr same
    · rintro (other | same)
      · exact absurd rfl other
      · refine ⟨_, _, url, path, ?_⟩
        rw [served, same, String.ofList_toList]
        rfl

/-- An agent whose `net/url` is asked for plain names only. -/
def plainRuntime : Runtime := { runtime with parseURL := fun text => .ok ⟨"", "", none, text, "", ""⟩ }

theorem joins_plainRuntime {base : String} : Joins plainRuntime base where
  join segments segment _ _ := by rw [below, below, List.foldl_append]; rfl
  relative _ _ := ⟨_, rfl, rfl⟩

/-- A control plane that wants version 1.5.16. -/
def someApi : AgentApi := .newHandler "1.5.16" "https://releases.example" "legacy_direct"

theorem release_redirected_default :
    Redirected plainRuntime "https://ops.example" .default "1.5.15" .manifest someApi "" ↔
    Layout.default ≠ .legacyDirect ∨ wantedVersion someApi "" = "1.5.15".toList :=
  release_redirected_iff joins_plainRuntime (by decide)

/-- An update to 1.5.15 was issued before the control plane wanted 1.5.16, and its manifest is looked for in
the newer release. -/
theorem direct_redirected_elsewhere : isSemver "1.5.15" ∧
    manifestURL plainRuntime "https://ops.example/api/v1/agent-releases" .legacyDirect "1.5.15" =
      .ok "https://ops.example/api/v1/agent-releases/manifest.json" ∧
    someApi.serveAgentRelease "" "manifest.json".toList = some (asset "1.5.16" "manifest.json") ∧
    ¬Redirected plainRuntime "https://ops.example" .legacyDirect "1.5.15" .manifest someApi "" := by
  have served : someApi.serveAgentRelease "" "manifest.json".toList = some (asset "1.5.16" "manifest.json") := by
    decide +kernel
  refine ⟨by decide, by decide +kernel, served, ?_⟩
  rintro ⟨url, path, derived, found, redirected⟩
  have at_ : ReleaseFile.manifest.url plainRuntime ("https://ops.example" ++
    "/api/v1/agent-releases") .legacyDirect "1.5.15" =
      .ok (below (routedBase "https://ops.example") (directories .legacyDirect "1.5.15" ++ ["manifest.json"])) :=
    url_eq joins_plainRuntime (by decide) .manifest
  obtain rfl := Except.ok.inj (at_.symm.trans derived)
  have path_ : pathBelow (routedBase "https://ops.example")
      (below (routedBase "https://ops.example") (directories .legacyDirect "1.5.15" ++ ["manifest.json"])) =
        some "manifest.json".toList :=
    pathBelow_eq
  obtain rfl := Option.some.inj (path_.symm.trans found)
  rw [served] at redirected
  exact absurd (Option.some.inj redirected) (by decide)

end DatrixOps
