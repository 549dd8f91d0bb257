import Mathlib.Data.List.Pairwise
import DatrixOps.Golang.JsonText
import DatrixOps.Release.Verifier
import DatrixOps.Theorems.ReleaseRedirect

/-! Whether an installed agent can take what the release gate lets through. It follows the manifest to every
    file, except to one whose URL ends in a mark that is no part of the file's name; and it does not take in
    more than 256 MB. -/

namespace DatrixOps
namespace ReleaseGate
open Golang Release Host Posix

variable {rt : Runtime} {dir : ReleaseDir} {filename : String} {maxSize : Int} {content : Bytes}

/-! ### What the gate has seen -/

/-- A file that was read was read whole. -/
theorem readRegularFile_ok (h : readRegularFile dir filename maxSize = .ok content) :
    ∃ file, dir.openFile filename = .ok file ∧ file.regular = true ∧ file.bytes = content ∧ content ≠ [] ∧
      (content.length : Int) ≤ maxSize := by
  unfold readRegularFile at h
  obtain ⟨file, opened, h⟩ := ok_of_bind h
  obtain ⟨regular, h⟩ := ok_of_check h
  obtain ⟨sized, h⟩ := ok_of_check h
  have regular : file.regular = true := by simpa using regular
  dsimp only at h
  split at h
  · cases h
  · obtain ⟨fits, h⟩ := ok_of_check h
    have taken : file.bytes.take (maxSize + 1).toNat = content := Except.ok.inj h
    rw [taken] at fits
    have length := congrArg List.length taken
    rw [List.length_take] at length
    have whole : file.bytes = content := taken ▸ (List.take_of_length_le (by omega)).symm
    refine ⟨file, opened, regular, whole, ?_, Int.not_lt.mp fits⟩
    rintro rfl
    have size := file.sized regular
    rw [whole] at size
    exact sized (Or.inl (Int.le_of_eq size))

/-- The gate has read the file of an artifact, and found its size and its hash. -/
structure Verified (rt : Runtime) (dir : ReleaseDir) (filename : String) (a : Artifact) (content : Bytes) : Prop where
  read : readRegularFile dir filename a.size = .ok content
  size : (content.length : Int) = a.size
  hash : hexDecode (rt.lower.toLower a.sha256.toList) = some (rt.sha256 content)

theorem verifyArtifactFile_ok {a : Artifact} (h : verifyArtifactFile rt dir filename a = .ok ()) :
    ∃ content, Verified rt dir filename a content := by
  unfold verifyArtifactFile at h
  obtain ⟨content, read, h⟩ := ok_of_bind h
  obtain ⟨size, h⟩ := ok_of_check h
  split at h
  · cases h
  · rename_i expected decoded
    obtain ⟨-, h⟩ := ok_of_check h
    obtain ⟨hash, -⟩ := ok_of_check h
    exact ⟨content, read, not_not.mp size, decoded.trans (congrArg some (not_not.mp hash).symm)⟩

theorem artifactFilename_ok {url name : String} (h : artifactFilename rt url = .ok name) :
    ∃ u, rt.parseURL (trimmed url) = .ok u ∧ pathBase u.path = name := by
  unfold artifactFilename at h
  obtain ⟨u, parsed, h⟩ := ok_of_bind h
  exact ⟨u, ok_of_wrap parsed, Except.ok.inj (ok_of_check h).2⟩

/-- An artifact is the file of a required target. -/
structure Matches (rt : Runtime) (dir : ReleaseDir) (a : Artifact) (target : ReleaseTarget) : Prop where
  required : target ∈ requiredReleaseTargets
  key : targetKey target.os target.arch = targetKey a.os a.arch
  named : artifactFilename rt a.url = .ok target.filename
  verified : ∃ content, Verified rt dir (dir.join target.filename) a content

theorem verifyArtifacts_ok :
    ∀ {as : List Artifact} {seen seen' : List String}, verifyArtifacts rt dir as seen = .ok seen' →
    (∀ a ∈ as, targetKey a.os a.arch ∉ seen ∧ ∃ target, Matches rt dir a target) ∧
      as.Pairwise (fun a b => targetKey a.os a.arch ≠ targetKey b.os b.arch) ∧
        ∀ key ∈ seen', key ∈ seen ∨ ∃ a ∈ as, targetKey a.os a.arch = key
  | [], _, _, h => ⟨(fun _ h => nomatch h), .nil, fun _ hkey => Or.inl (Except.ok.inj h ▸ hkey)⟩
  | a :: rest, seen, seen', h => by
    unfold verifyArtifacts at h
    dsimp only at h
    split at h
    · cases h
    rename_i target found
    obtain ⟨unseen, h⟩ := ok_of_check h
    obtain ⟨filename, named, h⟩ := ok_of_bind h
    obtain ⟨same, h⟩ := ok_of_check h
    obtain ⟨_, verified, h⟩ := ok_of_bind h
    have named : artifactFilename rt a.url = .ok target.filename := not_not.mp same ▸ ok_of_wrap named
    have verified := verifyArtifactFile_ok (ok_of_wrap verified)
    rw [not_not.mp same] at verified
    obtain ⟨each, distinct, keys⟩ := verifyArtifacts_ok h
    refine ⟨List.forall_mem_cons.mpr ⟨⟨unseen, target, List.mem_of_find?_eq_some found,
      by simpa using List.find?_some found, named, verified⟩,
      fun b hb => ⟨fun old => (each b hb).1 (List.mem_cons_of_mem _ old), (each b hb).2⟩⟩,
      .cons (fun b hb same => (each b hb).1 (same ▸ List.mem_cons_self ..)) distinct, ?_⟩
    intro key hkey
    rcases keys key hkey with hkey | ⟨b, hb, hkey⟩
    · rcases List.mem_cons.mp hkey with rfl | hkey
      · exact Or.inr ⟨a, List.mem_cons_self .., rfl⟩
      · exact Or.inl hkey
    · exact Or.inr ⟨b, List.mem_cons_of_mem _ hb, hkey⟩

/-- What a directory holds that the gate accepted. -/
structure Accepted (rt : Runtime) (decodeStrict : Bytes → Except String Manifest) (dir : ReleaseDir) (version : String)
    (publicKey : Bytes)
    (m : Manifest) : Prop where
  key : publicKey.length = 32
  signed : ∃ manifestBytes signature, readRegularFile dir (dir.join "manifest.json") manifestSizeLimit =
    .ok manifestBytes ∧
    readRegularFile dir (dir.join "manifest.sig") 64 = .ok signature ∧ signature.length = 64 ∧
      rt.verify publicKey manifestBytes signature = true ∧ decodeStrict manifestBytes = .ok m
  semver : isSemver version = true
  version : m.version = version
  valid : m.validate rt = .ok ()
  artifacts : ∀ a ∈ m.artifacts, ∃ target, Matches rt dir a target
  distinct : m.artifacts.Pairwise fun a b => targetKey a.os a.arch ≠ targetKey b.os b.arch
  complete : ∀ target ∈ requiredReleaseTargets, ∃ a ∈ m.artifacts, targetKey a.os a.arch =
    targetKey target.os target.arch

theorem verifyVersionFile_ok {m : Manifest} {version : String} (h : verifyVersionFile rt dir m version = .ok ()) :
    isSemver version = true := by
  unfold verifyVersionFile at h
  obtain ⟨bytes, -, h⟩ := ok_of_bind h
  dsimp only at h
  obtain ⟨-, h⟩ := ok_of_check h
  obtain ⟨-, -, h⟩ := ok_of_bind h
  obtain ⟨plain, h⟩ := ok_of_check h
  obtain ⟨-, h⟩ := ok_of_check h
  split at h
  · cases h
  · rename_i same
    rw [← not_not.mp same]
    simpa using plain

theorem accepted {decodeStrict : Bytes → Except String Manifest} {version : String} {publicKey : Bytes} {m : Manifest}
    (h : verifyReleaseDirectory rt decodeStrict dir version publicKey = .ok m) :
      Accepted rt decodeStrict dir version publicKey m := by
  unfold verifyReleaseDirectory at h
  obtain ⟨-, h⟩ := ok_of_check h
  obtain ⟨key, h⟩ := ok_of_check h
  obtain ⟨manifestBytes, manifestRead, h⟩ := ok_of_bind h
  obtain ⟨signature, signatureRead, h⟩ := ok_of_bind h
  obtain ⟨signed, h⟩ := ok_of_check h
  obtain ⟨-, -, h⟩ := ok_of_bind h
  obtain ⟨-, -, h⟩ := ok_of_bind h
  obtain ⟨-, -, h⟩ := ok_of_bind h
  obtain ⟨m', decoded, h⟩ := ok_of_bind h
  obtain ⟨version, h⟩ := ok_of_check h
  obtain ⟨_, semver, h⟩ := ok_of_bind h
  obtain ⟨_, valid, h⟩ := ok_of_bind h
  obtain ⟨seen, artifacts, h⟩ := ok_of_bind h
  split at h
  · cases h
  rename_i missing
  obtain rfl : m' = m := Except.ok.inj h
  obtain ⟨length, verified⟩ := not_or.mp signed
  obtain ⟨each, distinct, keys⟩ := verifyArtifacts_ok artifacts
  refine ⟨not_not.mp key, ⟨manifestBytes, signature, ok_of_wrap manifestRead, ok_of_wrap signatureRead,
    not_not.mp length,
    by simpa using verified, ok_of_wrap decoded⟩, verifyVersionFile_ok semver, not_not.mp version, ok_of_wrap valid,
    fun a ha => (each a ha).2, distinct, ?_⟩
  intro target required
  have seen_ : targetKey target.os target.arch ∈ seen := by simpa using List.find?_eq_none.mp missing target required
  exact (keys _ seen_).resolve_left List.not_mem_nil

/-! ### The artifact of a target -/

theorem slash_free {target : ReleaseTarget} (required : target ∈ requiredReleaseTargets) :
    '/' ∉ target.os.toList ∧ '/' ∉ target.arch.toList := by
  have each : requiredReleaseTargets.all fun target => '/' ∉ target.os.toList ∧ '/' ∉ target.arch.toList := by decide
  simpa using List.all_eq_true.mp each target required

/-- A text with one slash is split by it in one way. -/
theorem append_slash_inj {a b c d : List Char} (hc : '/' ∉ c) (hd : '/' ∉ d) (h : a ++ '/' :: b = c ++ '/' :: d) :
    a = c ∧ b = d := by
  have count := congrArg (List.count '/') h
  simp only [List.count_append, List.count_cons_self, List.count_eq_zero.mpr hc, List.count_eq_zero.mpr hd] at count
  have ha : '/' ∉ a := List.count_eq_zero.mp (by omega)
  have parts := congrArg (split '/') h
  rw [split_append_cons ha, split_append_cons hc] at parts
  have left : a = c := (List.cons.inj parts).1
  rw [left] at h
  exact ⟨left, (List.cons.inj (List.append_cancel_left h)).2⟩

theorem targetKey_inj {target : ReleaseTarget} (required : target ∈ requiredReleaseTargets) {os arch : String}
    (h : targetKey os arch = targetKey target.os target.arch) : os = target.os ∧ arch = target.arch := by
  obtain ⟨hos, harch⟩ := slash_free required
  have chars := congrArg String.toList h
  simp only [targetKey, String.toList_append, List.append_assoc] at chars
  obtain ⟨os_, arch_⟩ := append_slash_inj hos harch (chars : os.toList ++ '/' :: arch.toList =
    target.os.toList ++ '/' :: target.arch.toList)
  exact ⟨String.toList_injective os_, String.toList_injective arch_⟩

theorem target_eq {target other : ReleaseTarget} (required : target ∈ requiredReleaseTargets)
    (required' : other ∈ requiredReleaseTargets)
    (os : other.os = target.os) (arch : other.arch = target.arch) : other = target := by
  have each : requiredReleaseTargets.all fun t => requiredReleaseTargets.all fun u => (u.os = t.os ∧ u.arch = t.arch) →
    u = t := by decide
  have each := List.all_eq_true.mp (List.all_eq_true.mp each target required) other required'
  simp only [decide_eq_true_eq] at each
  exact each ⟨os, arch⟩

/-- The agent selects an artifact that the gate has compared with the file of the target. -/
theorem Accepted.selected {decodeStrict : Bytes → Except String Manifest} {version : String} {publicKey : Bytes}
    {m : Manifest}
    (h : Accepted rt decodeStrict dir version publicKey m) {target : ReleaseTarget}
    (required : target ∈ requiredReleaseTargets) :
    ∃ a, m.artifactFor target.os target.arch = .ok a ∧ a ∈ m.artifacts ∧ a.os = target.os ∧ a.arch = target.arch ∧
      Matches rt dir a target ∧ ∀ b ∈ m.artifacts, b.os = target.os → b.arch = target.arch → b = a := by
  obtain ⟨b, hb, key⟩ := h.complete target required
  obtain ⟨os, arch⟩ := targetKey_inj required key
  cases found : m.artifacts.find? fun a => a.os = target.os && a.arch = target.arch with
  | none => exact absurd (List.find?_eq_none.mp found b hb) (by simp [os, arch])
  | some a =>
    have ha := List.mem_of_find?_eq_some found
    have same : a.os = target.os ∧ a.arch = target.arch := by simpa using List.find?_some found
    obtain ⟨other, matched⟩ := h.artifacts a ha
    obtain ⟨os', arch'⟩ := targetKey_inj matched.required matched.key.symm
    obtain rfl := target_eq required matched.required (os'.symm.trans same.1) (arch'.symm.trans same.2)
    refine ⟨a, ?_, ha, same.1, same.2, matched, fun c hc os arch => ?_⟩
    · unfold Manifest.artifactFor
      rw [found]
      rfl
    · by_contra other_
      have : Std.Symm fun a b : Artifact => targetKey a.os a.arch ≠ targetKey b.os b.arch := ⟨fun _ _ h => h.symm⟩
      exact h.distinct.forall hc ha other_ (by rw [os, arch, same.1, same.2])

/-! ### Hashes -/

/-- `unicode.ToLower` makes ASCII of nothing outside it but the sign for Kelvin and the dotted capital I. -/
structure LowersUnicode (lower : CaseMap) : Prop where
  wide : ∀ c : Char, 128 ≤ c.toNat → (lower.lower c).toNat < 128 → lower.lower c = 'k' ∨ lower.lower c = 'i'

/-- A character of ASCII whose lower case is a hexadecimal digit. -/
theorem ascii_digit : ∀ k < 128, ∀ n ∈ fromHexChar (Char.ofNat k).toLower, n < 16 ∧
    Nat.digitChar n = (Char.ofNat k).toLower ∧
    isSpace (Char.ofNat k) = false ∧ Json.foldRune (Char.ofNat k).toLower = Json.foldRune (Char.ofNat k) := by decide

theorem fromHexChar_ascii {c : Char} {n : Nat} (h : fromHexChar c = some n) : c.toNat < 128 := by
  have bound : ∀ d : Char, c ≤ d → c.toNat ≤ d.toNat := fun d hd => UInt32.le_iff_toNat_le.mp (Char.le_def.mp hd)
  unfold fromHexChar at h
  split at h
  · rename_i digit
    exact Nat.lt_of_le_of_lt (bound '9' digit.2) (by decide)
  split at h
  · rename_i digit
    exact Nat.lt_of_le_of_lt (bound 'f' digit.2) (by decide)
  split at h
  · rename_i digit
    exact Nat.lt_of_le_of_lt (bound 'F' digit.2) (by decide)
  · cases h

theorem lowered_digit {lower : CaseMap} (unicode : LowersUnicode lower) {c : Char} {n : Nat}
    (h : fromHexChar (lower.lower c) = some n) :
    n < 16 ∧ Nat.digitChar n = lower.lower c ∧ isSpace c = false ∧ Json.foldRune (lower.lower c) = Json.foldRune c := by
  by_cases ascii : c.toNat < 128
  · rw [lower.ascii c ascii] at h ⊢
    have checked := ascii_digit c.toNat ascii n
    rw [Char.ofNat_toNat] at checked
    exact checked h
  · rcases unicode.wide c (Nat.not_lt.mp ascii) (fromHexChar_ascii h) with hk | hi
    · have none_ : fromHexChar 'k' = none := by decide
      rw [hk, none_] at h
      cases h
    · have none_ : fromHexChar 'i' = none := by decide
      rw [hi, none_] at h
      cases h

theorem hexDecode_lowered {lower : CaseMap} (unicode : LowersUnicode lower) : ∀ {s : List Char} {bytes : Bytes},
    hexDecode (lower.toLower s) = some bytes →
      (bytes.flatMap fun b => [Nat.digitChar (b.toNat / 16), Nat.digitChar (b.toNat % 16)]) = lower.toLower s ∧
        ∀ c ∈ s, isSpace c = false ∧ Json.foldRune (lower.lower c) = Json.foldRune c
  | [], bytes, h => by
    obtain rfl : [] = bytes := Option.some.inj h
    exact ⟨rfl, fun _ h => nomatch h⟩
  | [c], _, h => nomatch h
  | c :: d :: rest, bytes, h => by
    simp only [CaseMap.toLower, List.map_cons, hexDecode, Option.bind_eq_bind, Option.bind_eq_some_iff,
      Option.pure_def] at h
    obtain ⟨high, hc, low, hd, others, hrest, h⟩ := h
    obtain rfl := Option.some.inj h
    obtain ⟨hhigh, highDigit, highPlain⟩ := lowered_digit unicode hc
    obtain ⟨hlow, lowDigit, lowPlain⟩ := lowered_digit unicode hd
    obtain ⟨digits, plain⟩ := hexDecode_lowered unicode hrest
    have value : (UInt8.ofNat (16 * high + low)).toNat = 16 * high + low := by
      rw [UInt8.toNat_ofNat']
      omega
    constructor
    · have front : (16 * high + low) / 16 = high := by omega
      have back : (16 * high + low) % 16 = low := by omega
      rw [List.flatMap_cons, digits, value, front, back, highDigit, lowDigit]
      rfl
    · exact List.forall_mem_cons.mpr ⟨highPlain, List.forall_mem_cons.mpr ⟨lowPlain, plain⟩⟩

/-- A hash that the gate has compared byte by byte is the one that the agent compares as text. -/
theorem Verified.hashed {a : Artifact} (unicode : LowersUnicode rt.lower) (h : Verified rt dir filename a content) :
    Hashed rt a.sha256 content := by
  obtain ⟨digits, plain⟩ := hexDecode_lowered unicode h.hash
  have trim : trimmed a.sha256 = a.sha256 := by
    rw [trimmed, trimSpace_eq_self fun c hc => (plain c hc).1, String.ofList_toList]
  have folded : (rt.lower.toLower a.sha256.toList).map Json.foldRune = a.sha256.toList.map Json.foldRune := by
    rw [CaseMap.toLower, List.map_map]
    exact List.map_congr_left fun c hc => (plain c hc).2
  unfold Hashed equalFold hexEncode
  rw [trim, digits, String.toList_ofList, folded]
  exact decide_eq_true rfl

/-! ### URLs -/

/-- The name of a file in a directory. -/
structure PlainName (name : String) : Prop where
  single : '/' ∉ name.toList
  some_ : name ≠ ""
  notDot : name ≠ "."
  notUp : name ≠ ".."

/-- What may follow a name in a relative reference without a query or a fragment. -/
def marks : List String := ["", "?", "#", "?#"]

/-- What `net/url` does with the URLs of a release. A path is percent-decoded by `unescape`. A relative
    reference that is one name without a query or a fragment may end in the marks that begin them. Joining a
    name to an HTTP URL makes a URL of that file. -/
structure NetURL (rt : Runtime) (unescape : String → Option String) : Prop where
  empty : unescape "" = some ""
  plain : ∀ s t u, unescape s = some u → '%' ∉ t.toList → unescape (s ++ t) = some (u ++ t)
  relative : ∀ s u, rt.parseURL s = .ok u → u.isAbs = false → u.rawQuery = "" → u.fragment = "" → u.path ≠ "" →
    '/' ∉ u.path.toList →
    ∃ name tail, s = name ++ tail ∧ tail ∈ marks ∧ unescape name = some u.path ∧ ∀ c ∈ ['?', '#', '/'], c ∉ name.toList
  join : ∀ base u, rt.parseURL base = .ok u → u.scheme = "https" ∨ u.scheme = "http" → u.host ≠ "" →
    ∃ directory, ∀ elem name, '/' ∉ elem.toList → unescape elem = some name → PlainName name →
      ∃ text, rt.joinPath base elem = .ok text ∧ rt.parseURL text = .ok { u with path := directory ++ "/" ++ name }

/-- Where the files of a release are, the agent being willing to fetch from there. -/
structure Site (rt : Runtime) (releaseBaseURL : String) (layout : Layout) (version artBase : String) : Prop where
  base : artifactBaseURL rt releaseBaseURL layout version = .ok artBase
  fetchable : validateUpdateURL rt artBase = .ok ()

/-- A URL of the file of this name, which lies beside the manifest. -/
def FileAt (rt : Runtime) (artBase url name : String) : Prop :=
  ∃ manifestAt u directory, rt.joinPath artBase "manifest.json" = .ok manifestAt ∧ rt.parseURL manifestAt = .ok u ∧
    u.path = directory ++ "/manifest.json" ∧ rt.parseURL url = .ok { u with path := directory ++ "/" ++ name }

theorem validateUpdateURL_ok {url : String} (h : validateUpdateURL rt url = .ok ()) :
    ∃ u, rt.parseURL url = .ok u ∧ (u.scheme = "https" ∨ u.scheme = "http") ∧ u.host ≠ "" ∧ u.user = none := by
  unfold validateUpdateURL at h
  obtain ⟨u, parsed, h⟩ := ok_of_bind h
  obtain ⟨scheme, h⟩ := ok_of_check h
  obtain ⟨host, h⟩ := ok_of_check h
  refine ⟨u, ok_of_wrap parsed, by grind, host, ?_⟩
  split at h
  · cases h
  · rename_i user
    simpa using user

/-- A URL of the same scheme, host and user as one that may be fetched from. -/
theorem validate_of_parse {url text : String} {u : URL} (h : validateUpdateURL rt url = .ok ())
    (parsed : rt.parseURL url = .ok u)
    (path : String) (same : rt.parseURL text = .ok { u with path := path }) : validateUpdateURL rt text = .ok () := by
  obtain ⟨u', parsed', scheme, host, user⟩ := validateUpdateURL_ok h
  obtain rfl := Except.ok.inj (parsed.symm.trans parsed')
  unfold validateUpdateURL
  rw [same]
  rcases scheme with scheme | scheme
  · simp [Release.wrap, Except.mapError, Bind.bind, Except.bind, scheme, host, user, pure, Except.pure]
  · simp [Release.wrap, Except.mapError, Bind.bind, Except.bind, scheme, host, user, pure, Except.pure]

section Site
variable {unescape : String → Option String} {releaseBaseURL version artBase : String} {layout : Layout}

theorem NetURL.ascii (library : NetURL rt unescape) {s : String} (h : '%' ∉ s.toList) : unescape s = some s := by
  have joined := library.plain "" s "" library.empty h
  rwa [String.empty_append] at joined

/-- A name that is joined to the base makes a URL of that file, and of no other. -/
theorem Site.located (library : NetURL rt unescape) (site : Site rt releaseBaseURL layout version artBase) :
    ∀ elem name, '/' ∉ elem.toList → unescape elem = some name → PlainName name →
      ∃ text, rt.joinPath artBase elem = .ok text ∧ validateUpdateURL rt text = .ok () ∧
        ∀ file, FileAt rt artBase text file ↔ name = file := by
  obtain ⟨b, parsed, scheme, host, user⟩ := validateUpdateURL_ok site.fetchable
  obtain ⟨directory, joins⟩ := library.join artBase b parsed scheme host
  obtain ⟨manifestAt, manifestJoined, manifestParsed⟩ := joins "manifest.json" "manifest.json" (by decide)
    (library.ascii (by decide)) ⟨by decide, by decide, by decide, by decide⟩
  intro elem name single decoded plain
  obtain ⟨text, joined, same⟩ := joins elem name single decoded plain
  refine ⟨text, joined, validate_of_parse site.fetchable parsed _ same, fun file => ?_⟩
  constructor
  · rintro ⟨manifestAt', u, directory', joined', parsed', path, at_⟩
    obtain rfl := Except.ok.inj (manifestJoined.symm.trans joined')
    obtain rfl := Except.ok.inj (manifestParsed.symm.trans parsed')
    have same_ : directory = directory' := by
      have suffix : directory ++ "/manifest.json" = directory' ++ "/manifest.json" := by
        rw [← path, String.append_assoc]
        rfl
      exact (String.append_left_inj _).mp suffix
    subst same_
    exact (String.append_right_inj _).mp (congrArg URL.path (Except.ok.inj (same.symm.trans at_)))
  · rintro rfl
    exact ⟨manifestAt, _, directory, manifestJoined, manifestParsed, by simp [String.append_assoc], same⟩

theorem plain_filename {target : ReleaseTarget} (required : target ∈ requiredReleaseTargets) {tail : String}
    (htail : tail ∈ marks) :
    '/' ∉ tail.toList ∧ '%' ∉ tail.toList ∧ PlainName (target.filename ++ tail) := by
  have names : requiredReleaseTargets.all fun t => '/' ∉ t.filename.toList ∧ 2 < t.filename.toList.length := by decide
  have tails : marks.all fun u => '/' ∉ u.toList ∧ '%' ∉ u.toList := by decide
  obtain ⟨single, long⟩ := of_decide_eq_true (List.all_eq_true.mp names target required)
  obtain ⟨slash, percent⟩ := of_decide_eq_true (List.all_eq_true.mp tails tail htail)
  have other : ∀ short : String, short.toList.length ≤ 2 → target.filename ++ tail ≠ short := by
    rintro short hshort rfl
    rw [String.toList_append, List.length_append] at hshort
    omega
  refine ⟨slash, percent, ?_, other "" (by decide), other "." (by decide), other ".." (by decide)⟩
  rw [String.toList_append, List.mem_append]
  exact not_or.mpr ⟨single, slash⟩

/-- A relative reference. -/
def Relative (rt : Runtime) (url : String) : Prop := ∀ u, rt.parseURL (trimmed url) = .ok u → u.isAbs = false

/-- The URL does not end in the mark of a query or of a fragment. -/
def Unmarked (url : String) : Prop := '?' ∉ (trimmed url).toList ∧ '#' ∉ (trimmed url).toList

instance (url : String) : Decidable (Unmarked url) := inferInstanceAs (Decidable (_ ∧ _))

theorem validateURL_relative {url : String} {u : URL} (h : Artifact.validateURL rt url = .ok ())
    (parsed : rt.parseURL (trimmed url) = .ok u)
    (relative : u.isAbs = false) : u.rawQuery = "" ∧ u.fragment = "" ∧ u.path = pathBase u.path := by
  unfold Artifact.validateURL at h
  rw [parsed] at h
  dsimp only at h
  rw [relative, if_neg Bool.false_ne_true] at h
  split at h
  · cases h
  · grind

/-- The agent looks for an artifact under the name of its file, and the mark that its URL ends in. -/
theorem Matches.located (library : NetURL rt unescape) (site : Site rt releaseBaseURL layout version artBase)
    {a : Artifact}
    {target : ReleaseTarget} (h : Matches rt dir a target) (valid : a.validate rt = .ok ())
    (relative : Relative rt a.url) :
    ∃ text tail, artifactURL rt releaseBaseURL layout version a.url = .ok text ∧ (tail = "" ↔ Unmarked a.url) ∧
      ∀ file, FileAt rt artBase text file ↔ target.filename ++ tail = file := by
  obtain ⟨u, parsed, base⟩ := artifactFilename_ok h.named
  unfold Artifact.validate at valid
  obtain ⟨-, valid⟩ := ok_of_check valid
  obtain ⟨-, valid⟩ := ok_of_check valid
  obtain ⟨nonempty, valid⟩ := ok_of_check valid
  obtain ⟨_, valid, -⟩ := ok_of_bind valid
  obtain ⟨query, fragment, single⟩ := validateURL_relative valid parsed (relative u parsed)
  have path : u.path = target.filename := single.trans base
  obtain ⟨-, -, plain⟩ := plain_filename h.required (List.mem_cons_self .. : "" ∈ marks)
  rw [String.append_empty] at plain
  obtain ⟨name, tail, text, htail, decoded, clean⟩ := library.relative _ u parsed (relative u parsed) query fragment
    (path ▸ plain.some_) (path ▸ plain.single)
  obtain ⟨slash, percent, plain⟩ := plain_filename h.required htail
  rw [path] at decoded
  have single : '/' ∉ (trimmed a.url).toList := by
    rw [text, String.toList_append, List.mem_append]
    exact not_or.mpr ⟨clean '/' (by decide), slash⟩
  obtain ⟨artifactAt, joined, -, at_⟩ :=
    site.located library (trimmed a.url) _ single (text ▸ library.plain _ tail _ decoded percent) plain
  refine ⟨artifactAt, tail, ?_, ?_, at_⟩
  · unfold artifactURL
    simp only [nonempty, parsed, site.base, Release.wrap, Except.mapError, relative u parsed, if_false,
      bind, Except.bind,
      Bool.false_eq_true]
    exact joined
  · unfold Unmarked
    rw [text, String.toList_append]
    simp only [List.mem_append, not_or, clean '?' (by decide), clean '#' (by decide), not_false_eq_true, true_and]
    have each : ∀ t ∈ marks, t = "" ↔ '?' ∉ t.toList ∧ '#' ∉ t.toList := by decide
    exact each tail htail

/-! ### Downloads -/

/-- The answer to a request for a file that holds these bytes. -/
structure Answers (r : HttpResponse) (bytes : Bytes) : Prop where
  ok : r.statusCode = 200
  length : r.contentLength = bytes.length ∨ r.contentLength = -1
  body : r.body.flatten = bytes
  whole : r.bodyError = none

/-- A server that has the files of the directory, and no others, beside the manifest. -/
def Serves (rt : Runtime) (dir : ReleaseDir) (artBase : String) (net : String → HttpResponse) : Prop :=
  ∀ name url, PlainName name → FileAt rt artBase url name →
    match dir.openFile (dir.join name) with
    | .ok file => file.regular = true → Answers (net url) file.bytes
    | .error _ => (net url).statusCode = 404

/-- Every request is answered by `net`. -/
def Answered (net : String → HttpResponse) : Assumption := fun c o _ =>
  match c with
  | .fetch url => o.error = none ∧ o.response = net url
  | _ => True

theorem flatten_limitBody : ∀ (n : Nat) (body : List Bytes), (limitBody n body).flatten = body.flatten.take n
  | n, [] => by simp [limitBody]
  | 0, chunk :: rest => by simp [limitBody]
  | n + 1, chunk :: rest => by
    rw [limitBody, List.flatten_cons, List.flatten_cons, flatten_limitBody, List.take_append]

theorem Answers.limited {r : HttpResponse} {bytes : Bytes} (h : Answers r bytes) (n : Nat) :
    (r.limited n).1.flatten = bytes.take n ∧ (r.limited n).2 = none := by
  unfold HttpResponse.limited
  refine ⟨by rw [flatten_limitBody, h.body], ?_⟩
  dsimp only
  split
  · exact h.whole
  · rfl

variable {net : String → HttpResponse} {s : State}

theorem safe_fetch {url : String} :
    Safe (Answered net) (fun _ => True) (fun _ => False) (fun r _ => r = net url) (perform (.fetch url)) s := by
  refine safe_perform (.fetch url) fun o ho => ⟨trivial, ?_⟩
  obtain ⟨noError, response⟩ := (ho : o.error = none ∧ o.response = net url)
  unfold State.answer
  rw [noError]
  exact response

/-- What a program returns that does not fail. -/
theorem safe_ok {α : Type} {x : Except String α} {a : α} (h : x = .ok a) :
    Safe (Answered net) (fun _ => True) (fun _ => False) (fun r _ => r = a) (Host.ofExcept x) s := by
  rw [h]
  exact System.safe_done.mpr rfl

theorem safe_downloadLimited {url : String} {bytes : Bytes} {limit : Nat}
    (fetchable : validateUpdateURL rt url = .ok ())
    (answers : Answers (net url) bytes) (some_ : bytes ≠ []) (fits : bytes.length ≤ limit) :
    Safe (Answered net) (fun _ => True) (fun _ => False) (fun r _ => r = bytes) (downloadLimited rt url limit) s := by
  unfold downloadLimited
  refine safe_bind (safe_ok fetchable) (fun _ s _ => ?_) fun _ h => h
  refine safe_bind (safe_wrap safe_fetch) (fun response s h => ?_) fun _ h => h
  subst h
  have declared : ¬((net url).contentLength : Int) > limit := by
    rcases answers.length with h | h
    · omega
    · omega
  refine safe_passed (not_not.mpr answers.ok) (safe_passed declared ?_)
  obtain ⟨read, noError⟩ := answers.limited (limit + 1)
  rw [List.take_of_length_le (by omega)] at read
  have result : (net url).limited (limit + 1) = (((net url).limited (limit + 1)).1, none) := by rw [← noError]
  rw [result]
  dsimp only
  rw [read]
  exact safe_passed (by omega) (safe_passed some_ (safe_pure rfl))

theorem verifyManifest_eq {publicKey manifestBytes signature : Bytes} (some_ : manifestBytes ≠ [])
    (length : signature.length = 64)
    (verified : rt.verify publicKey manifestBytes signature = true) :
    (Client.mk publicKey).verifyManifest rt manifestBytes signature = .ok () := by
  have nonempty : manifestBytes.length ≠ 0 := fun h => some_ (List.length_eq_zero_iff.mp h)
  simp [Client.verifyManifest, nonempty, length, signatureSize, verified, pure, Except.pure]

theorem safe_fetchManifest {publicKey manifestBytes signature : Bytes} {m : Manifest} {manifestAt signatureAt : String}
    (key : publicKey.length = 32) (fetchableManifest : validateUpdateURL rt manifestAt = .ok ())
    (fetchableSignature : validateUpdateURL rt signatureAt = .ok ())
    (servesManifest : Answers (net manifestAt) manifestBytes)
    (servesSignature : Answers (net signatureAt) signature) (some_ : manifestBytes ≠ [])
    (fits : manifestBytes.length ≤ 256 * 1024)
    (length : signature.length = 64) (verified : rt.verify publicKey manifestBytes signature = true)
    (decoded : rt.unmarshal manifestBytes = .ok m)
    (valid : m.validate rt = .ok ()) :
    Safe (Answered net) (fun _ => True) (fun _ => False) (fun r _ => r = m)
      ((Client.mk publicKey).fetchManifest rt manifestAt signatureAt) s := by
  have nonempty : signature ≠ [] := by
    rintro rfl
    cases length
  have small : signature.length ≤ maxSignatureSize := length ▸ by decide
  unfold Client.fetchManifest
  refine safe_passed (not_not.mpr key) ?_
  refine safe_bind (safe_wrap (safe_downloadLimited fetchableManifest servesManifest some_ fits))
    (fun _ s h => ?_) fun _ h => h
  rw [h]
  refine safe_bind (safe_wrap (safe_downloadLimited fetchableSignature servesSignature nonempty small))
    (fun _ s h => ?_) fun _ h => h
  rw [h]
  refine safe_bind (safe_ok (verifyManifest_eq some_ length verified)) (fun _ s _ => ?_) fun _ h => h
  refine safe_bind (safe_ok (a := m) (by rw [decoded]; rfl)) (fun _ s h => ?_) fun _ h => h
  rw [h]
  exact safe_bind (safe_ok (a := ()) (by rw [valid]; rfl)) (fun _ s _ => safe_pure rfl) fun _ h => h

/-! ### Installed agents -/

/-- The bytes that the agent takes of an answer. -/
def downloaded (r : HttpResponse) : Bytes := (r.limited downloadLimit).1.flatten

/-- What the agent checks of the size and the hash of the bytes that it has downloaded. -/
def checkDownloaded (rt : Runtime) (expectedSHA256 : String) (expectedSize : Int) (bytes : Bytes) :
    Except String Unit := do
  if bytes.length = 0 then throw "downloaded update is empty"
  if expectedSize > 0 ∧ (bytes.length : Int) ≠ expectedSize then
    throw ("downloaded update size mismatch: got " ++ toString bytes.length ++ " bytes, expected " ++
      toString expectedSize)
  if expectedSHA256 ≠ "" ∧ !equalFold (hexEncode (rt.sha256 bytes)) (trimmed expectedSHA256) then
    throw ("downloaded update checksum mismatch: got " ++ hexEncode (rt.sha256 bytes) ++ ", expected " ++
      expectedSHA256)

/-- An agent for this target comes from the site to the bytes that the gate has hashed. -/
structure Installable (rt : Runtime) (dir : ReleaseDir) (net : String → HttpResponse) (publicKey : Bytes)
    (releaseBaseURL : String)
    (layout : Layout) (version artBase : String) (m : Manifest) (target : ReleaseTarget) : Prop where
  fetched : ∃ manifestAt signatureAt, manifestURL rt releaseBaseURL layout version = .ok manifestAt ∧
    signatureURL rt releaseBaseURL layout version = .ok signatureAt ∧
      ∀ choices s, system.Allowed (Answered net)
      ((Client.mk publicKey).fetchManifest rt manifestAt signatureAt).run choices s →
        (system.run ((Client.mk publicKey).fetchManifest rt manifestAt signatureAt).run choices s).1 = .ok m
  requested : ∀ payload : AgentUpdatePayload, trimmed payload.targetVersion = version →
    requestedVersion rt payload = .ok m.version
  artifact : ∃ a artifactAt content, m.artifactFor target.os target.arch = .ok a ∧ a.os = target.os ∧
    a.arch = target.arch ∧
    artifactURL rt releaseBaseURL layout version a.url = .ok artifactAt ∧ FileAt rt artBase artifactAt target.filename ∧
      readRegularFile dir (dir.join target.filename) a.size = .ok content ∧
        checkDownloaded rt a.sha256 a.size (downloaded (net artifactAt)) = .ok () ∧
        downloaded (net artifactAt) = content

variable {decodeStrict : Bytes → Except String Manifest} {publicKey : Bytes} {m : Manifest} {target : ReleaseTarget}

/-- A file of the directory that was read is what the server answers with. -/
theorem Serves.answers (serves : Serves rt dir artBase net) {url name : String} (plain : PlainName name)
    (at_ : FileAt rt artBase url name) (read : readRegularFile dir (dir.join name) maxSize = .ok content) :
      Answers (net url) content := by
  obtain ⟨file, opened, regular, rfl, -, -⟩ := readRegularFile_ok read
  have served := serves name url plain at_
  rw [opened] at served
  exact served regular

theorem Accepted.fetched (h : Accepted rt decodeStrict dir version publicKey m) (library : NetURL rt unescape)
    (strict : ∀ bytes m, decodeStrict bytes = .ok m → rt.unmarshal bytes = .ok m)
    (site : Site rt releaseBaseURL layout version artBase)
    (serves : Serves rt dir artBase net) :
    ∃ manifestAt signatureAt, manifestURL rt releaseBaseURL layout version = .ok manifestAt ∧
      signatureURL rt releaseBaseURL layout version = .ok signatureAt ∧
        ∀ choices s, system.Allowed (Answered net)
        ((Client.mk publicKey).fetchManifest rt manifestAt signatureAt).run choices s →
          (system.run ((Client.mk publicKey).fetchManifest rt manifestAt signatureAt).run choices s).1 = .ok m := by
  obtain ⟨manifestBytes, signature, manifestRead, signatureRead, length, verified, decoded⟩ := h.signed
  have manifestName : PlainName "manifest.json" := ⟨by decide, by decide, by decide, by decide⟩
  have signatureName : PlainName "manifest.sig" := ⟨by decide, by decide, by decide, by decide⟩
  obtain ⟨manifestAt, manifestJoined, manifestFetchable, manifestFile⟩ :=
    site.located library "manifest.json" "manifest.json" (by decide) (library.ascii (by decide)) manifestName
  obtain ⟨signatureAt, signatureJoined, signatureFetchable, signatureFile⟩ :=
    site.located library "manifest.sig" "manifest.sig" (by decide) (library.ascii (by decide)) signatureName
  refine ⟨manifestAt, signatureAt, ?_, ?_, fun choices s allowed => ?_⟩
  · simp only [manifestURL, site.base, Release.wrap, Except.mapError, bind, Except.bind]
    exact manifestJoined
  · simp only [signatureURL, site.base, Release.wrap, Except.mapError, bind, Except.bind]
    exact signatureJoined
  · obtain ⟨-, -, -, -, some_, fits⟩ := readRegularFile_ok manifestRead
    have fits : manifestBytes.length ≤ 256 * 1024 := by
      unfold manifestSizeLimit at fits
      omega
    have safe : Safe (Answered net) (fun _ => True) (fun _ => False) (fun r _ => r = m)
        ((Client.mk publicKey).fetchManifest rt manifestAt signatureAt) s :=
      safe_fetchManifest h.key manifestFetchable signatureFetchable
        (serves.answers manifestName ((manifestFile _).mpr rfl) manifestRead)
        (serves.answers signatureName ((signatureFile _).mpr rfl) signatureRead) some_ fits length verified
        (strict _ _ decoded) h.valid
    have ended := safe.run allowed
    cases result : (system.run ((Client.mk publicKey).fetchManifest rt manifestAt signatureAt).run choices s).1 with
    | error e =>
      rw [result] at ended
      exact ended.elim
    | ok m' =>
      rw [result] at ended
      exact congrArg Except.ok ended

theorem Accepted.requested (h : Accepted rt decodeStrict dir version publicKey m) (payload : AgentUpdatePayload)
    (asked : trimmed payload.targetVersion = version) : requestedVersion rt payload = .ok m.version := by
  have some_ : version ≠ "" := fun empty => absurd h.semver (by rw [empty]; decide)
  simp only [requestedVersion, asked, some_, h.semver, h.version, if_true, if_false]
  rfl

theorem checkDownloaded_eq {sha256 : String} {size : Int} {bytes : Bytes} (some_ : bytes ≠ [])
    (sized : (bytes.length : Int) = size)
    (hashed : Hashed rt sha256 bytes) : checkDownloaded rt sha256 size bytes = .ok () := by
  have nonempty : bytes.length ≠ 0 := fun h => some_ (List.length_eq_zero_iff.mp h)
  have same : equalFold (hexEncode (rt.sha256 bytes)) (trimmed sha256) = true := hashed
  simp [checkDownloaded, nonempty, sized, same, pure, Except.pure]

theorem checkDownloaded_size {sha256 : String} {size : Int} {bytes : Bytes} (positive : 0 < size)
    (h : checkDownloaded rt sha256 size bytes = .ok ()) : (bytes.length : Int) = size := by
  unfold checkDownloaded at h
  obtain ⟨sized, -⟩ := ok_of_check (ok_of_check h).2
  by_contra other
  exact sized ⟨positive, other⟩

/-- An artifact reaches the agent when it fits and its URL names its file. -/
theorem Accepted.installable (h : Accepted rt decodeStrict dir version publicKey m) (library : NetURL rt unescape)
    (unicode : LowersUnicode rt.lower) (strict : ∀ bytes m, decodeStrict bytes = .ok m → rt.unmarshal bytes = .ok m)
    (site : Site rt releaseBaseURL layout version artBase) (serves : Serves rt dir artBase net)
    (required : target ∈ requiredReleaseTargets)
    {a : Artifact} (ha : a ∈ m.artifacts) (os : a.os = target.os) (arch : a.arch = target.arch)
    (relative : Relative rt a.url)
    (fits : a.size ≤ 268435456) (unmarked : Unmarked a.url) :
    Installable rt dir net publicKey releaseBaseURL layout version artBase m target := by
  obtain ⟨a', selected, -, -, -, matched, single⟩ := h.selected required
  obtain rfl := single a ha os arch
  obtain ⟨content, verified⟩ := matched.verified
  obtain ⟨artifactAt, tail, resolved, mark, at_⟩ :=
    matched.located library site (validate_manifest h.valid a ha) relative
  obtain rfl := mark.mpr unmarked
  have named : FileAt rt artBase artifactAt target.filename := (at_ _).mpr (String.append_empty)
  obtain ⟨-, -, plain⟩ := plain_filename required (List.mem_cons_self .. : "" ∈ marks)
  rw [String.append_empty] at plain
  have answers := serves.answers plain named verified.read
  obtain ⟨-, -, -, -, some_, -⟩ := readRegularFile_ok verified.read
  have whole : downloaded (net artifactAt) = content := by
    have size := verified.size
    refine (answers.limited downloadLimit).1.trans (List.take_of_length_le ?_)
    unfold downloadLimit
    omega
  refine ⟨h.fetched library strict site serves, h.requested, a, artifactAt, content, selected, os, arch, resolved,
    named, verified.read, ?_, whole⟩
  rw [whole]
  exact checkDownloaded_eq some_ verified.size (verified.hashed unicode)

theorem Accepted.of_installable (h : Accepted rt decodeStrict dir version publicKey m) (library : NetURL rt unescape)
    (site : Site rt releaseBaseURL layout version artBase) (required : target ∈ requiredReleaseTargets)
    {a : Artifact} (ha : a ∈ m.artifacts) (os : a.os = target.os) (arch : a.arch = target.arch)
    (relative : Relative rt a.url)
    (installable : Installable rt dir net publicKey releaseBaseURL layout version artBase m target) :
    a.size ≤ 268435456 ∧ Unmarked a.url := by
  obtain ⟨a', selected, -, -, -, matched, single⟩ := h.selected required
  obtain rfl := single a ha os arch
  have valid := validate_manifest h.valid a ha
  obtain ⟨b, artifactAt, content, selected', -, -, resolved, named, -, passes, -⟩ := installable.artifact
  obtain rfl := Except.ok.inj (selected.symm.trans selected')
  obtain ⟨text, tail, resolved', mark, at_⟩ := matched.located library site valid relative
  obtain rfl := Except.ok.inj (resolved.symm.trans resolved')
  constructor
  · have size := checkDownloaded_size (validate_artifact valid).1 passes
    have bound : (downloaded (net artifactAt)).length ≤ downloadLimit := by
      unfold downloaded HttpResponse.limited
      rw [flatten_limitBody]
      exact List.length_take_le ..
    unfold downloadLimit at bound
    omega
  · refine mark.mp ?_
    have same := (at_ _).mp named
    exact String.append_eq_left_iff.mp same

/-- A release that the gate accepts, at relative URLs, is one that an installed agent can take: every target
    whose artifact is no longer than 256 MB and has a URL without a mark at its end. -/
theorem installable_iff (library : NetURL rt unescape) (unicode : LowersUnicode rt.lower)
    (strict : ∀ bytes m, decodeStrict bytes = .ok m → rt.unmarshal bytes = .ok m)
    (h : verifyReleaseDirectory rt decodeStrict dir version publicKey = .ok m)
    (relative : ∀ a ∈ m.artifacts, Relative rt a.url)
    (site : Site rt releaseBaseURL layout version artBase) (serves : Serves rt dir artBase net)
    (required : target ∈ requiredReleaseTargets) :
    Installable rt dir net publicKey releaseBaseURL layout version artBase m target ↔
      ∃ a ∈ m.artifacts, a.os = target.os ∧ a.arch = target.arch ∧ a.size ≤ 268435456 ∧ Unmarked a.url := by
  have h := accepted h
  constructor
  · intro installable
    obtain ⟨a, -, ha, os, arch, -⟩ := h.selected required
    exact ⟨a, ha, os, arch, h.of_installable library site required ha os arch (relative a ha) installable⟩
  · rintro ⟨a, ha, os, arch, fits, unmarked⟩
    exact h.installable library unicode strict site serves required ha os arch (relative a ha) fits unmarked

end Site

/-! ### A release -/

namespace Published

/-- The host that the release is published on. -/
def origin : List Char := "https://releases.example".toList

/-- The marks that a path spells by their numbers. -/
def decodePath : List Char → List Char
  | '%' :: '3' :: 'F' :: rest => '?' :: decodePath rest
  | '%' :: '2' :: '3' :: rest => '#' :: decodePath rest
  | c :: rest => c :: decodePath rest
  | [] => []

/-- The marks of a path spelt by their numbers. -/
def encodePath (s : List Char) : List Char :=
  s.flatMap fun c => if c = '?' then ['%', '3', 'F'] else if c = '#' then ['%', '2', '3'] else [c]

/-- What a text begins with that has no slash is before the slash. -/
theorem two_of_append {p q : Char} {b r : List Char} (hp : p ≠ '/') (hq : q ≠ '/') :
    ∀ {a : List Char}, a ++ '/' :: b = p :: q :: r → ∃ r', a = p :: q :: r'
  | [], h => absurd (List.cons.inj h).1.symm hp
  | [_], h => absurd (List.cons.inj (List.cons.inj h).2).1.symm hq
  | x :: y :: rest, h => by
    simp only [List.cons_append, List.cons.injEq] at h
    exact ⟨rest, by rw [h.1, h.2.1]⟩

theorem decodePath_slash (a b : List Char) : decodePath (a ++ '/' :: b) = decodePath a ++ '/' :: decodePath b := by
  fun_induction decodePath a with
  | case1 rest ih => simp [decodePath, ih]
  | case2 rest ih => simp [decodePath, ih]
  | case3 c rest notQuery notFragment ih =>
    have skip : decodePath (c :: (rest ++ '/' :: b)) = c :: decodePath (rest ++ '/' :: b) := by
      rw [decodePath]
      · intro r hc hr
        obtain ⟨r', hr'⟩ := two_of_append (by decide) (by decide) hr
        exact notQuery r' hc hr'
      · intro r hc hr
        obtain ⟨r', hr'⟩ := two_of_append (by decide) (by decide) hr
        exact notFragment r' hc hr'
    rw [List.cons_append, skip, ih]
    rfl
  | case4 => simp [decodePath]

theorem decodePath_encodePath : ∀ {s : List Char}, '%' ∉ s → decodePath (encodePath s) = s
  | [], _ => rfl
  | c :: rest, h => by
    have ih := decodePath_encodePath (fun hc => h (List.mem_cons_of_mem _ hc) : '%' ∉ rest)
    have notPercent : c ≠ '%' := fun hc => h (hc ▸ List.mem_cons_self ..)
    unfold encodePath at ih ⊢
    rw [List.flatMap_cons]
    split
    · rename_i query
      simp [decodePath, ih, query]
    · split
      · rename_i fragment
        simp [decodePath, ih, fragment]
      · simp [decodePath, ih, notPercent]

/-- URLs of one site, and relative references, without escapes other than of the two marks. -/
def parseURL (s : String) : Except String URL :=
  if origin <+: s.toList then .ok ⟨"https", "releases.example", none,
    String.ofList (decodePath (s.toList.drop origin.length)), "", ""⟩
  else if '%' ∈ s.toList then .error "invalid URL escape"
  else if String.ofList (s.toList.dropWhile (· ∉ ['?', '#'])) ∈ marks then
    .ok ⟨"", "", none, String.ofList (s.toList.takeWhile (· ∉ ['?', '#'])), "", ""⟩
  else .error "net/url: other URL"

/-- A base and a path in a URL. -/
def joinPath (base elem : String) : Except String String := .ok (base ++ "/" ++ String.ofList (encodePath elem.toList))

/-- Texts without escapes are their own meaning. -/
def unescape (s : String) : Option String := if '%' ∈ s.toList then none else some s

theorem netURL {rt : Runtime} (parse : rt.parseURL = parseURL) (join : rt.joinPath = joinPath) :
    NetURL rt unescape where
  empty := rfl
  plain := by
    intro s t u h ht
    unfold unescape at h ⊢
    split at h
    · cases h
    · rename_i hs
      rw [if_neg (by rw [String.toList_append, List.mem_append]; exact not_or.mpr ⟨hs, ht⟩), ← Option.some.inj h]
  relative := by
    intro s u parsed relative _ _ _ single
    rw [parse, parseURL] at parsed
    split at parsed
    · rw [← Except.ok.inj parsed] at relative
      cases relative
    split at parsed
    · cases parsed
    rename_i percent
    split at parsed
    · rename_i mark
      rw [← Except.ok.inj parsed] at single ⊢
      have parts := List.takeWhile_append_dropWhile (p := fun c => decide (c ∉ ['?', '#'])) (l := s.toList)
      refine ⟨String.ofList (s.toList.takeWhile (· ∉ ['?', '#'])), _, ?_, mark, ?_, ?_⟩
      · rw [← String.ofList_append, parts, String.ofList_toList]
      · refine if_neg fun hc => percent ?_
        rw [String.toList_ofList] at hc
        exact (List.takeWhile_prefix _).subset hc
      · intro c hc
        rw [String.toList_ofList] at single ⊢
        rcases List.mem_cons.mp hc with rfl | hc
        · exact fun h => absurd (List.mem_takeWhile_imp h) (by decide)
        rcases List.mem_cons.mp hc with rfl | hc
        · exact fun h => absurd (List.mem_takeWhile_imp h) (by decide)
        · rw [List.mem_singleton.mp hc]
          exact single
    · cases parsed
  join := by
    intro base u parsed scheme _
    rw [parse, parseURL] at parsed
    split at parsed
    · rename_i here
      rw [← Except.ok.inj parsed]
      refine ⟨String.ofList (decodePath (base.toList.drop origin.length)), fun elem name _ decoded _ => ?_⟩
      unfold unescape at decoded
      split at decoded
      · cases decoded
      rename_i percent
      obtain rfl := Option.some.inj decoded
      refine ⟨_, congrFun (congrFun join base) elem, ?_⟩
      have chars : (base ++ "/" ++ String.ofList (encodePath elem.toList)).toList =
          base.toList ++ '/' :: encodePath elem.toList := by
        simp
      obtain ⟨rest, hrest⟩ := here
      rw [parse, parseURL, chars, ← hrest, List.append_assoc, if_pos (List.prefix_append ..), List.drop_left,
        List.drop_left, decodePath_slash,
        decodePath_encodePath percent]
      simp [String.append_assoc]
    split at parsed
    · cases parsed
    split at parsed
    · rw [← Except.ok.inj parsed] at scheme
      rcases scheme with h | h
      · exact absurd h (by simp)
      · exact absurd h (by simp)
    · cases parsed

/-- The hash of the agent. -/
def agentHash : String := "d4f0bc5a29de06b510f9aa428f1eedba926012b591fef7a518e776a7c9bd1824"

/-- An artifact of the manifest. -/
def listed (os arch url : String) : Artifact := ⟨os, arch, url, agentHash, 5⟩

/-- The first URL ends in a mark. -/
def manifest : Manifest := ⟨1, "1.5.0", 63900000000, [
  listed "linux" "amd64" "datrixops-agent-linux-amd64?",
  listed "linux" "arm64" "datrixops-agent-linux-arm64",
  listed "darwin" "amd64" "datrixops-agent-darwin-amd64",
  listed "darwin" "arm64" "datrixops-agent-darwin-arm64",
  listed "windows" "amd64" "datrixops-agent-windows-amd64.exe"]⟩

/-- An artifact as the manifest spells it. -/
def artifactJSON (a : Artifact) : Bytes := [
  "\x7b\"os\":\"", a.os, "\",\"arch\":\"", a.arch, "\",\"url\":\"", a.url, "\",\"sha256\":\"", a.sha256,
    "\",\"size\":5\x7d"].flatMap asciiBytes

/-- The artifacts as the manifest spells them. -/
def artifactsJSON : List Artifact → Bytes
  | [] => []
  | [a] => artifactJSON a
  | a :: rest => artifactJSON a ++ asciiBytes "," ++ artifactsJSON rest

/-- The bytes of the manifest. -/
def manifestBytes : Bytes := ["\x7b\"schema_version\":1,", "\"version\":\"1.5.0\",", "\"published_at\":",
    "\"2025-11-29T08:00:00Z\"",
  ",\"artifacts\":["].flatMap asciiBytes ++ artifactsJSON manifest.artifacts ++ asciiBytes "]\x7d"

/-- The signature of the manifest. -/
def signature : Bytes := List.replicate 64 7

/-- The agent of every target. -/
def agent : Bytes := asciiBytes "agent"

/-- Every script. -/
def script : Bytes := asciiBytes "#!/bin/sh"

/-- The file with the version. -/
def version : Bytes := asciiBytes "1.5.0"

/-- The hashes of the files. -/
def sha256 (bytes : Bytes) : Bytes :=
  if bytes = agent then [0xd4, 0xf0, 0xbc, 0x5a, 0x29, 0xde, 0x06, 0xb5, 0x10, 0xf9, 0xaa, 0x42, 0x8f, 0x1e, 0xed, 0xba,
    0x92, 0x60, 0x12, 0xb5, 0x91, 0xfe, 0xf7, 0xa5, 0x18, 0xe7, 0x76, 0xa7, 0xc9, 0xbd, 0x18, 0x24]
  else if bytes = script then [0x3a, 0xf7, 0x1a, 0xdb, 0x27, 0x8a, 0xd4, 0xaf, 0x33, 0xc1, 0x44, 0xb7, 0x8f,
    0xa1, 0xae, 0x70,
    0x8d, 0xa0, 0x3b, 0x77, 0x3d, 0x98, 0x32, 0x4a, 0xe9, 0x91, 0xa7, 0xda, 0xed, 0xb5, 0x3c, 0xa2]
  else if bytes = version then [0x1f, 0x4d, 0xc0, 0x96, 0xd5, 0x8f, 0x7d, 0x21, 0xe3, 0x87, 0x56, 0x71, 0xae,
    0xe6, 0xf2, 0x9b,
    0x12, 0x0a, 0xb8, 0x42, 0x18, 0xfa, 0x47, 0xdb, 0x2c, 0xb5, 0x3b, 0xc9, 0xeb, 0x5b, 0x4d, 0xac]
  else if bytes = signature then [0x6c, 0xfe, 0xeb, 0x3a, 0xa2, 0x5d, 0x3f, 0x41, 0x1d, 0xae, 0x5e, 0xec, 0x17,
    0xd7, 0x36, 0x9c,
    0xa7, 0x15, 0x3e, 0x72, 0xdc, 0xf5, 0x4b, 0xcf, 0x4c, 0x3d, 0xae, 0xc0, 0xf5, 0xb2, 0x1f, 0xc7]
  else [0x9e, 0x87, 0x68, 0x6c, 0xc3, 0xcb, 0x0f, 0x08, 0x8a, 0xb3, 0xc0, 0x72, 0x0f, 0x06, 0x41, 0x6c,
    0x41, 0x40, 0xb6, 0x7c, 0x54, 0x48, 0x9c, 0xf5, 0xc0, 0x99, 0x87, 0xd7, 0x4f, 0x82, 0x57, 0x8b]

/-- The files of the release, apart from the sidecars. -/
def names : List String := ["manifest.json", "manifest.sig", "agent-release.version", "install.sh", "install-mac.sh",
    "install.ps1",
  "update-agent.sh", "update-agent.ps1"] ++ requiredReleaseTargets.map (·.filename)

/-- What the files hold; the agents are stubs. -/
def holds (name : String) : Option Bytes :=
  if name ∉ names then none
  else if name = "manifest.json" then some manifestBytes
  else if name = "manifest.sig" then some signature
  else if name = "agent-release.version" then some version
  else if name ∈ requiredReleaseTargets.map (·.filename) then some agent
  else some script

/-- A file with these bytes. -/
def stored (bytes : Bytes) : DiskFile := ⟨true, bytes.length, bytes, none, fun _ => rfl⟩

/-- The file that a path with this suffix is a sidecar of. -/
def besides (suffix path : String) : Option Bytes :=
  if suffix.toList <:+ path.toList then
    holds (String.ofList (path.toList.take (path.toList.length - suffix.toList.length))) else none

/-- The directory of the release. -/
def directory : ReleaseDir where
  join name := name
  openFile path :=
    match holds path, besides ".sha256" path, besides ".size" path with
    | some bytes, _, _ => .ok (stored bytes)
    | none, some bytes, _ => .ok (stored (asciiBytes (hexEncode (sha256 bytes))))
    | none, none, some bytes => .ok (stored (asciiBytes (toString bytes.length)))
    | none, none, none => .error "no such file or directory"

theorem linux_not_windows : "linux" ≠ "windows" := by decide

/-- An agent that knows this release. -/
def runtime : Runtime where
  goos := "linux"
  goarch := "arm64"
  notWindows := linux_not_windows
  executablePath := "/usr/local/bin/datrixops-agent"
  pid := 812
  envLayout := ""
  parseURL := parseURL
  joinPath := joinPath
  quote text := "\"" ++ text ++ "\""
  lower := .asciiOnly
  verify _ message signed := message = manifestBytes && signed = signature
  sha256 := sha256
  unmarshal bytes := if bytes = manifestBytes then .ok manifest else .error "unexpected end of JSON input"
  marshal fields := fields.flatMap fun field => asciiBytes field.2

/-- What the host answers. -/
def net (url : String) : HttpResponse :=
  match (parseURL url).toOption.bind fun u => (directory.openFile (String.ofList (u.path.toList.drop 7))).toOption with
  | some file => ⟨200, "200 OK", file.bytes.length, [file.bytes], none⟩
  | none => ⟨404, "404 Not Found", -1, [], none⟩

/-! The gate accepts it. -/

theorem holds_append {name suffix : String} (hsuffix : suffix ∈ [".sha256", ".size"]) :
    holds (name ++ suffix) = none := by
  refine if_pos fun h => ?_
  have each : names.all fun n => [".sha256", ".size"].all fun u => ¬u.toList <:+ n.toList := by decide
  have other := List.all_eq_true.mp (List.all_eq_true.mp each _ h) _ hsuffix
  rw [String.toList_append] at other
  exact of_decide_eq_true other (List.suffix_append ..)

theorem besides_append {name suffix : String} : besides suffix (name ++ suffix) = holds name := by
  unfold besides
  rw [String.toList_append, if_pos (List.suffix_append ..), List.length_append, Nat.add_sub_cancel, List.take_left,
    String.ofList_toList]

theorem open_name {name : String} {bytes : Bytes} (h : holds name = some bytes) :
    directory.openFile name = .ok (stored bytes) := by
  simp only [directory, h]

theorem open_sha256 {name : String} {bytes : Bytes} (h : holds name = some bytes) :
    directory.openFile (name ++ ".sha256") = .ok (stored (asciiBytes (hexEncode (sha256 bytes)))) := by
  simp only [directory, holds_append (List.mem_cons_self ..), besides_append, h]

theorem open_size {name : String} {bytes : Bytes} (h : holds name = some bytes) :
    directory.openFile (name ++ ".size") = .ok (stored (asciiBytes (toString bytes.length))) := by
  have other : besides ".sha256" (name ++ ".size") = none := by
    refine if_neg fun hs => ?_
    obtain ⟨front, joined⟩ := hs
    have last := congrArg List.getLast? joined
    have six : ".sha256".toList.getLast? = some '6' := by decide
    have e : ".size".toList.getLast? = some 'e' := by decide
    rw [String.toList_append, List.getLast?_append, List.getLast?_append, six, e] at last
    exact absurd (Option.some.inj last) (by decide)
  simp only [directory, holds_append (List.mem_cons_of_mem _ (List.mem_cons_self ..)), other, besides_append, h]

theorem read_stored {path : String} {bytes : Bytes} (limit : Nat)
    (opened : directory.openFile path = .ok (stored bytes)) (some_ : bytes ≠ [])
    (fits : bytes.length ≤ limit) : readRegularFile directory path limit = .ok bytes := by
  have positive := List.length_pos_of_ne_nil some_
  have taken : bytes.take ((limit : Int) + 1).toNat = bytes := List.take_of_length_le (by omega)
  have least : ¬(bytes.length : Int) ≤ 0 := by omega
  have whole : ¬(bytes.length : Int) > limit := by omega
  simp only [readRegularFile, opened, stored, bind, Except.bind, Bool.not_true, Bool.false_eq_true, if_false, least,
    whole, or_self, taken,
    ite_self]
  rfl

theorem plain_text {text : String} (h : ∀ c ∈ text.toList, c.toNat < 128 ∧ isSpace c = false) :
    String.ofList (trimSpace (textOf (asciiBytes text))) = text := by
  rw [textOf_asciiBytes fun c hc => (h c hc).1, trimSpace_eq_self fun c hc => (h c hc).2, String.ofList_toList]

theorem plain_hex (bytes : Bytes) : ∀ c ∈ (hexEncode bytes).toList, c.toNat < 128 ∧ isSpace c = false := by
  have digits : ∀ n < 16, (Nat.digitChar n).toNat < 128 ∧ isSpace (Nat.digitChar n) = false := by decide
  intro c hc
  simp only [hexEncode, String.toList_ofList, List.mem_flatMap, List.mem_cons, List.not_mem_nil, or_false] at hc
  obtain ⟨b, -, rfl | rfl⟩ := hc
  · exact digits _ (by have := b.toNat_lt; omega)
  · exact digits _ (by omega)

theorem plain_number (n : Nat) : ∀ c ∈ (toString n).toList, c.toNat < 128 ∧ isSpace c = false := by
  intro c hc
  rw [Nat.toString_eq_ofList_toDigits, String.toList_ofList] at hc
  have digit := isDigit_toDigits.2 c hc
  refine ⟨?_, not_isSpace_of_isDigit digit⟩
  simp only [Char.isDigit, Bool.and_eq_true, decide_eq_true_eq] at digit
  exact Nat.lt_of_le_of_lt (UInt32.le_iff_toNat_le.mp digit.2) (by decide)

/-- The contents. -/
def contents : List Bytes := [manifestBytes, signature, version, agent, script]

theorem mem_contents {name : String} {bytes : Bytes} (h : holds name = some bytes) : bytes ∈ contents := by
  unfold holds at h
  unfold contents
  grind

theorem length_asciiBytes (text : String) : (asciiBytes text).length = text.length := by
  rw [asciiBytes, List.length_map, String.length_toList]

theorem length_artifactJSON (os arch url : String) :
    (artifactJSON (listed os arch url)).length = os.length + arch.length + url.length + 113 := by
  have hash : agentHash.length = 64 := by decide
  have texts : ("\x7b\"os\":\"".length, "\",\"arch\":\"".length, "\",\"url\":\"".length, "\",\"sha256\":\"".length,
    "\",\"size\":5\x7d".length) = (7, 10, 9, 12, 11) := by decide
  simp only [Prod.mk.injEq] at texts
  obtain ⟨h₁, h₂, h₃, h₄, h₅⟩ := texts
  simp only [artifactJSON, listed, List.flatMap_cons, List.flatMap_nil, List.length_append, List.length_nil,
    length_asciiBytes, hash, h₁, h₂,
    h₃, h₄, h₅]
  omega

theorem length_manifestBytes : manifestBytes.length ≤ 1000 := by
  simp only [manifestBytes, manifest, artifactsJSON, List.length_append, length_artifactJSON, List.flatMap_cons,
    List.flatMap_nil,
    length_asciiBytes]
  decide

theorem contents_small {bytes : Bytes} (h : bytes ∈ contents) : bytes.length ≤ 1000 := by
  rcases List.mem_cons.mp h with rfl | h
  · exact length_manifestBytes
  · have each : [signature, version, agent, script].all fun bytes => bytes.length ≤ 1000 := by decide
    exact of_decide_eq_true (List.all_eq_true.mp each bytes h)

theorem length_sha256 (bytes : Bytes) : (sha256 bytes).length = 32 := by
  unfold sha256
  split_ifs <;> rfl

theorem length_hexEncode (bytes : Bytes) : (asciiBytes (hexEncode bytes)).length = 2 * bytes.length := by
  unfold asciiBytes hexEncode
  rw [List.length_map, String.toList_ofList]
  induction bytes with
  | nil => rfl
  | cons b rest ih =>
    rw [List.flatMap_cons, List.length_append, ih]
    simp only [List.length_cons, List.length_nil]
    omega

theorem sidecars_pass {name : String} {bytes : Bytes} (h : holds name = some bytes) :
    verifySidecars runtime directory name bytes = .ok () := by
  have small := contents_small (mem_contents h)
  have hashSize : (asciiBytes (hexEncode (sha256 bytes))).length = 64 := by rw [length_hexEncode, length_sha256]
  have hashRead := read_stored 256 (open_sha256 h) (fun empty => by rw [empty] at hashSize; cases hashSize) (by omega)
  have sizeSize : (asciiBytes (toString bytes.length)).length = (Nat.toDigits 10 bytes.length).length := by
    rw [asciiBytes, List.length_map, Nat.toString_eq_ofList_toDigits, String.toList_ofList]
  have digits : (Nat.toDigits 10 bytes.length).length ≤ 4 :=
    (Nat.length_toDigits_le_iff (by decide) (by decide)).mpr (by omega)
  have sizeRead := read_stored 256 (open_size h)
    (fun empty => by rw [empty] at sizeSize; exact isDigit_toDigits.1 (List.length_eq_zero_iff.mp sizeSize.symm))
    (by omega)
  have number := plain_text (plain_number bytes.length)
  simp only [verifySidecars, wrap]
  rw [show (256 : Int) = ((256 : Nat) : Int) from rfl, hashRead, sizeRead]
  simp only [Except.mapError, bind, Except.bind, plain_text (plain_hex _), runtime, number]
  simp [pure, Except.pure]

theorem listed_valid {os arch url : String} (hos : trimmed os ≠ "") (harch : trimmed arch ≠ "")
    (hurl : trimmed url ≠ "")
    (h : Artifact.validateURL runtime url = .ok ()) : (listed os arch url).validate runtime = .ok () := by
  have hash : (trimmed agentHash).utf8ByteSize = 64 := by decide
  simp only [Artifact.validate, listed, hos, harch, hurl, h, hash]
  rfl

theorem listed_verified {os arch url name : String} (h : holds name = some agent) :
    verifyArtifactFile runtime directory name (listed os arch url) = .ok () := by
  have hash : hexDecode (CaseMap.asciiOnly.toLower agentHash.toList) = some (sha256 agent) := by decide
  have size : agent.length = 5 := by decide
  have verified : Verified runtime directory name (listed os arch url) agent :=
    ⟨read_stored 5 (open_name h) (by decide) (by decide), congrArg Nat.cast size, hash⟩
  have length : (runtime.sha256 agent).length = 32 := length_sha256 agent
  simp [verifyArtifactFile, verified.read, verified.size, verified.hash, bind, Except.bind, sidecars_pass h, length]

theorem step_verifyArtifacts (target : ReleaseTarget) {a : Artifact} {rest : List Artifact} {seen : List String}
    (found : requiredReleaseTargets.find? (fun t => targetKey t.os t.arch = targetKey a.os a.arch) = some target)
    (unseen : targetKey a.os a.arch ∉ seen) (named : artifactFilename runtime a.url = .ok target.filename)
    (verified : verifyArtifactFile runtime directory target.filename a = .ok ()) :
    verifyArtifacts runtime directory (a :: rest) seen =
      verifyArtifacts runtime directory rest (targetKey a.os a.arch :: seen) := by
  have path : directory.join target.filename = target.filename := rfl
  simp only [verifyArtifacts, found, unseen, named, path, verified, wrap, Except.mapError, bind, Except.bind, if_false,
    ne_eq, not_true_eq_false]

theorem holds_agent {target : ReleaseTarget} (required : target ∈ requiredReleaseTargets) :
    holds target.filename = some agent := by
  have name : target.filename ∈ requiredReleaseTargets.map (·.filename) := List.mem_map_of_mem required
  have others : requiredReleaseTargets.all fun t =>
      t.filename ≠ "manifest.json" ∧ t.filename ≠ "manifest.sig" ∧ t.filename ≠ "agent-release.version" := by decide
  obtain ⟨h₁, h₂, h₃⟩ := of_decide_eq_true (List.all_eq_true.mp others target required)
  unfold holds
  have known : target.filename ∈ names := List.mem_append_right _ name
  rw [if_neg (not_not.mpr known), if_neg h₁, if_neg h₂, if_neg h₃, if_pos name]

theorem scripts_pass : ∀ {scripts : List String}, (∀ name ∈ scripts, holds name = some script) →
    verifyScripts runtime directory scripts = .ok ()
  | [], _ => rfl
  | name :: rest, h => by
    have holds := h name (List.mem_cons_self ..)
    have read : readRegularFile directory (directory.join name) (manifestSizeLimit * 10) = .ok script :=
      read_stored (256 * 1024 * 10) (open_name holds) (by decide) (by decide)
    have sidecars : verifySidecars runtime directory (directory.join name) script = .ok () := sidecars_pass holds
    have ih := scripts_pass fun other hother => h other (List.mem_cons_of_mem _ hother)
    simp only [verifyScripts, read, wrap, Except.mapError, bind, Except.bind, sidecars, ih]

theorem version_passes : verifyVersionFile runtime directory manifest "1.5.0" = .ok () := by
  have holds_ : holds "agent-release.version" = some version := by decide
  have read : readRegularFile directory (directory.join "agent-release.version") 256 = .ok version :=
    read_stored 256 (open_name holds_) (by decide) (by decide)
  have sidecars : verifySidecars runtime directory (directory.join "agent-release.version") version = .ok () :=
    sidecars_pass holds_
  have text : String.ofList (trimSpace (textOf version)) = "1.5.0" := by decide
  have plain : isSemver "1.5.0" = true := by decide
  simp [verifyVersionFile, read, wrap, Except.mapError, bind, Except.bind, text, sidecars, plain, manifest,
    pure, Except.pure]

theorem urls_pass : (manifest.artifacts.all fun a => trimmed a.os ≠ "" ∧ trimmed a.arch ≠ "" ∧ trimmed a.url ≠ "" ∧
    Artifact.validateURL runtime a.url = .ok ()) ∧ (manifest.artifacts.map fun a => artifactFilename runtime a.url) =
      requiredReleaseTargets.map fun target => .ok target.filename := by decide +kernel

theorem validateArtifacts_eq : ∀ {as : List Artifact} (index : Nat), (∀ a ∈ as, a.validate runtime = .ok ()) →
    Manifest.validateArtifacts runtime index as = .ok ()
  | [], _, _ => rfl
  | a :: rest, index, h => by
    rw [Manifest.validateArtifacts, h a (List.mem_cons_self ..)]
    exact validateArtifacts_eq (index + 1) fun b hb => h b (List.mem_cons_of_mem _ hb)

theorem manifest_valid : manifest.validate runtime = .ok () := by
  have artifacts : Manifest.validateArtifacts runtime 0 manifest.artifacts = .ok () := by
    refine validateArtifacts_eq 0 fun a ha => ?_
    obtain ⟨hos, harch, hurl, valid⟩ := of_decide_eq_true (List.all_eq_true.mp urls_pass.1 a ha)
    have same : listed a.os a.arch a.url = a := by
      simp only [manifest, List.mem_cons, List.not_mem_nil, or_false] at ha
      rcases ha with rfl | rfl | rfl | rfl | rfl <;> rfl
    exact same ▸ listed_valid hos harch hurl valid
  have version : trimmed manifest.version ≠ "" := by decide
  have some_ : manifest.artifacts ≠ [] := List.cons_ne_nil _ _
  simp only [Manifest.validate, artifacts, version, some_]
  rfl

theorem artifacts_pass : verifyArtifacts runtime directory manifest.artifacts [] =
    .ok ((manifest.artifacts.map fun a => targetKey a.os a.arch).reverse) := by
  have named := urls_pass.2
  simp only [manifest, requiredReleaseTargets, List.map_cons, List.map_nil, List.cons.injEq, and_true] at named
  obtain ⟨h₁, h₂, h₃, h₄, h₅⟩ := named
  have agent : ∀ target ∈ requiredReleaseTargets, ∀ os arch url,
      verifyArtifactFile runtime directory target.filename (listed os arch url) = .ok () :=
    fun target required os arch url => listed_verified (holds_agent required)
  simp only [requiredReleaseTargets, List.forall_mem_cons] at agent
  obtain ⟨f₁, f₂, f₃, f₄, f₅, -⟩ := agent
  rw [manifest,
    step_verifyArtifacts ⟨"linux", "amd64", "datrixops-agent-linux-amd64"⟩ (by decide) (by decide) h₁ (f₁ ..),
    step_verifyArtifacts ⟨"linux", "arm64", "datrixops-agent-linux-arm64"⟩ (by decide) (by decide) h₂ (f₂ ..),
    step_verifyArtifacts ⟨"darwin", "amd64", "datrixops-agent-darwin-amd64"⟩ (by decide) (by decide) h₃ (f₃ ..),
    step_verifyArtifacts ⟨"darwin", "arm64", "datrixops-agent-darwin-arm64"⟩ (by decide) (by decide) h₄ (f₄ ..),
    step_verifyArtifacts ⟨"windows", "amd64", "datrixops-agent-windows-amd64.exe"⟩ (by decide) (by decide) h₅ (f₅ ..)]
  rfl

/-- What the gate looks at, one thing after the other. -/
theorem verifyReleaseDirectory_eq {rt : Runtime} {decodeStrict : Bytes → Except String Manifest} {dir : ReleaseDir}
    {version : String}
    {publicKey manifestBytes signature : Bytes} {m : Manifest} {seen : List String} (some_ : trimmed version ≠ "")
    (key : publicKey.length = 32)
    (manifestRead : readRegularFile dir (dir.join "manifest.json") manifestSizeLimit = .ok manifestBytes)
    (signatureRead : readRegularFile dir (dir.join "manifest.sig") 64 = .ok signature) (length : signature.length = 64)
    (signed : rt.verify publicKey manifestBytes signature = true)
    (manifestSidecars : verifySidecars rt dir (dir.join "manifest.json") manifestBytes = .ok ())
    (signatureSidecars : verifySidecars rt dir (dir.join "manifest.sig") signature = .ok ())
    (scripts : verifyScripts rt dir ["install.sh", "install-mac.sh", "install.ps1", "update-agent.sh",
      "update-agent.ps1"] = .ok ())
    (decoded : decodeStrict manifestBytes = .ok m) (same : m.version = version)
    (versionFile : verifyVersionFile rt dir m version = .ok ())
    (valid : m.validate rt = .ok ()) (artifacts : verifyArtifacts rt dir m.artifacts [] = .ok seen)
    (complete : requiredReleaseTargets.find? (fun target => targetKey target.os target.arch ∉ seen) = none) :
    verifyReleaseDirectory rt decodeStrict dir version publicKey = .ok m := by
  simp only [verifyReleaseDirectory, some_, key, manifestRead, signatureRead, length, signed, manifestSidecars,
    signatureSidecars, scripts,
    decoded, same, versionFile, valid, artifacts, complete, wrap, Except.mapError, bind, Except.bind, ne_eq,
    not_true_eq_false, Bool.not_true,
    Bool.false_eq_true, or_self, if_false]
  rfl

theorem verify_eq (key message signed : Bytes) :
    runtime.verify key message signed = (decide (message = manifestBytes) && decide (signed = signature)) := rfl

theorem unmarshal_eq (bytes : Bytes) :
    runtime.unmarshal bytes = if bytes = manifestBytes then .ok manifest
      else .error "unexpected end of JSON input" := rfl

theorem manifest_read : readRegularFile directory (directory.join "manifest.json") manifestSizeLimit =
    .ok manifestBytes ∧
    verifySidecars runtime directory (directory.join "manifest.json") manifestBytes = .ok () := by
  have held : holds "manifest.json" = some manifestBytes := by simp [holds, names]
  have limit : manifestSizeLimit = (262144 : Nat) := by decide
  refine ⟨?_, sidecars_pass held⟩
  rw [limit]
  exact read_stored _ (open_name held) (by simp [manifestBytes, asciiBytes])
    (Nat.le_trans length_manifestBytes (by omega))

theorem signature_read : readRegularFile directory (directory.join "manifest.sig") 64 = .ok signature ∧
    verifySidecars runtime directory (directory.join "manifest.sig") signature = .ok () := by
  have held : holds "manifest.sig" = some signature := by decide
  exact ⟨read_stored 64 (open_name held) (by decide) (by decide), sidecars_pass held⟩

theorem scripts_held :
    ["install.sh", "install-mac.sh", "install.ps1", "update-agent.sh", "update-agent.ps1"].all fun name =>
    holds name = some script := by decide

theorem targets_complete : requiredReleaseTargets.find? (fun target => targetKey target.os target.arch ∉
    (manifest.artifacts.map fun a => targetKey a.os a.arch).reverse) = none := by decide

theorem passes_gate : verifyReleaseDirectory runtime runtime.unmarshal directory "1.5.0" releasePublicKey =
    .ok manifest := by
  have signed : runtime.verify releasePublicKey manifestBytes signature = true := by
    simp only [verify_eq, decide_true, Bool.and_self]
  have decoded : runtime.unmarshal manifestBytes = .ok manifest := by
    simp only [unmarshal_eq, if_true]
  exact verifyReleaseDirectory_eq (by decide) (by decide) manifest_read.1 signature_read.1
    (by decide) signed manifest_read.2 signature_read.2
    (scripts_pass fun name hname => of_decide_eq_true (List.all_eq_true.mp scripts_held name hname)) decoded rfl
      version_passes manifest_valid
    artifacts_pass targets_complete

/-! Where it is served. -/

theorem site : Site runtime "https://releases.example" .default "1.5.0" "https://releases.example/1.5.0" := by
  have base : artifactBaseURL runtime "https://releases.example" .default "1.5.0" =
    .ok "https://releases.example/1.5.0" := by decide
  have fetchable : validateUpdateURL runtime "https://releases.example/1.5.0" = .ok () := by decide
  exact ⟨base, fetchable⟩

theorem serves : Serves runtime directory "https://releases.example/1.5.0" net := by
  rintro name url - ⟨manifestAt, u, dir, joined, parsed, path, at_⟩
  have joined' : joinPath "https://releases.example/1.5.0" "manifest.json" =
    .ok "https://releases.example/1.5.0/manifest.json" := by decide
  obtain rfl := Except.ok.inj (joined'.symm.trans joined)
  have parsed' : (parseURL "https://releases.example/1.5.0/manifest.json").toOption.map URL.path =
    some ("/1.5.0" ++ "/manifest.json") := by decide
  have parsed : parseURL "https://releases.example/1.5.0/manifest.json" = .ok u := parsed
  rw [parsed] at parsed'
  have same : dir = "/1.5.0" := by
    refine (String.append_left_inj "/manifest.json").mp ?_
    rw [← path]
    exact Option.some.inj parsed'
  subst same
  have at_ : parseURL url = .ok { u with path := "/1.5.0" ++ "/" ++ name } := at_
  have file : String.ofList (("/1.5.0" ++ "/" ++ name).toList.drop 7) = name := by
    have seven : ("/1.5.0" ++ "/").toList.length = 7 := by decide
    rw [String.toList_append, ← seven, List.drop_left, String.ofList_toList]
  have answer : net url = match (directory.openFile name).toOption with
      | some file => ⟨200, "200 OK", file.bytes.length, [file.bytes], none⟩
      | none => ⟨404, "404 Not Found", -1, [], none⟩ := by
    simp only [net, at_, Except.toOption, Option.bind_some, file]
  change match directory.openFile name with
    | .ok file => file.regular = true → Answers (net url) file.bytes
    | .error _ => (net url).statusCode = 404
  rw [answer]
  cases directory.openFile name with
  | ok file => exact fun _ => ⟨rfl, Or.inl rfl, List.append_nil _, rfl⟩
  | error e => rfl

theorem relative : ∀ a ∈ manifest.artifacts, Relative runtime a.url := by
  have each : manifest.artifacts.all fun a => (runtime.parseURL (trimmed a.url)).toOption.all fun u =>
    !u.isAbs := by decide
  intro a ha u parsed
  have checked := List.all_eq_true.mp each a ha
  rw [parsed] at checked
  simpa [Except.toOption] using checked

theorem unicode : LowersUnicode runtime.lower where
  wide c wide narrow := by
    have same : c.toLower = c := by
      unfold Char.toLower
      refine dif_neg fun upper => ?_
      have bound : c.toNat ≤ 90 := UInt32.le_iff_toNat_le.mp upper.2
      omega
    exact absurd narrow (by change ¬c.toLower.toNat < 128; rw [same]; omega)

/-- The release can be installed on ARM servers, and not on others: the URL that their agents make is that of
another file. -/
theorem installable_arm64 :
    Installable runtime directory net releasePublicKey "https://releases.example" .default "1.5.0"
    "https://releases.example/1.5.0" manifest ⟨"linux", "arm64", "datrixops-agent-linux-arm64"⟩ :=
  (installable_iff (netURL rfl rfl) unicode (fun _ _ h => h) passes_gate relative site serves (by decide)).mpr
    ⟨listed "linux" "arm64" "datrixops-agent-linux-arm64", by simp [manifest], rfl, rfl, by decide, by decide⟩

theorem marked_not_installable :
    ¬∀ (rt : Runtime) (unescape : String → Option String) (decodeStrict : Bytes → Except String Manifest)
    (dir : ReleaseDir) (net : String → HttpResponse) (publicKey : Bytes) (releaseBaseURL : String) (layout : Layout)
    (version artBase : String)
    (m : Manifest) (target : ReleaseTarget), NetURL rt unescape → LowersUnicode rt.lower →
      (∀ bytes m, decodeStrict bytes = .ok m → rt.unmarshal bytes = .ok m) →
        verifyReleaseDirectory rt decodeStrict dir version publicKey = .ok m → (∀ a ∈ m.artifacts, Relative rt a.url) →
          Site rt releaseBaseURL layout version artBase → Serves rt dir artBase net → target ∈ requiredReleaseTargets →
            Installable rt dir net publicKey releaseBaseURL layout version artBase m target := by
  intro claimed
  have installable := claimed runtime unescape runtime.unmarshal directory net releasePublicKey
    "https://releases.example" .default "1.5.0"
    "https://releases.example/1.5.0" manifest ⟨"linux", "amd64",
      "datrixops-agent-linux-amd64"⟩ (netURL rfl rfl) unicode (fun _ _ h => h)
    passes_gate relative site serves (by decide)
  have ha : listed "linux" "amd64" "datrixops-agent-linux-amd64?" ∈ manifest.artifacts := by simp [manifest]
  have unmarked : Unmarked (listed "linux" "amd64" "datrixops-agent-linux-amd64?").url :=
    ((accepted passes_gate).of_installable (netURL rfl rfl) site (by decide) ha rfl rfl (relative _ ha) installable).2
  have mark : '?' ∈ (trimmed (listed "linux" "amd64" "datrixops-agent-linux-amd64?").url).toList := by decide
  exact unmarked.1 mark

end Published

end ReleaseGate
end DatrixOps
