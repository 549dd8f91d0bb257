import DatrixOps.Golang.Strings

/-! IP addresses as in Go's `net`: the classes of addresses, the texts that are addresses, and the numeric
    forms that the C library's `inet_aton` takes for one besides. -/

namespace Golang

/-- `net.IP` in its 16-byte form. IPv4 addresses are the IPv6 ones they are mapped to. -/
structure IP where
  bits : BitVec 128
  deriving DecidableEq, Repr

namespace IP

def ofNat (n : Nat) : IP := ⟨.ofNat 128 n⟩

/-- The IPv4 address of 32 bits. -/
def ofIPv4 (n : Nat) : IP := ofNat (0xffff * 2 ^ 32 + n)

def octet (ip : IP) (i : Nat) : Nat := ip.bits.toNat / 256 ^ (15 - i) % 256

/-- `To4` has an answer. -/
def isIPv4 (ip : IP) : Bool := ip.bits.toNat / 2 ^ 32 = 0xffff

def isUnspecified (ip : IP) : Bool := ip = ofIPv4 0 || ip = ofNat 0

def isLoopback (ip : IP) : Bool := if ip.isIPv4 then ip.octet 12 = 127 else ip = ofNat 1

def isPrivate (ip : IP) : Bool :=
  if ip.isIPv4 then
    ip.octet 12 = 10 || (ip.octet 12 = 172 && ip.octet 13 / 16 = 1) || (ip.octet 12 = 192 && ip.octet 13 = 168)
  else ip.octet 0 / 2 = 0xfc / 2

def isMulticast (ip : IP) : Bool := if ip.isIPv4 then ip.octet 12 / 16 = 0xe else ip.octet 0 = 0xff

def isLinkLocalMulticast (ip : IP) : Bool :=
  if ip.isIPv4 then ip.octet 12 = 224 && ip.octet 13 = 0 && ip.octet 14 = 0
  else ip.octet 0 = 0xff && ip.octet 1 % 16 = 2

def isLinkLocalUnicast (ip : IP) : Bool :=
  if ip.isIPv4 then ip.octet 12 = 169 && ip.octet 13 = 254 else ip.octet 0 = 0xfe && ip.octet 1 / 64 = 0x80 / 64

def isGlobalUnicast (ip : IP) : Bool :=
  ip ≠ ofIPv4 0xffffffff && !ip.isUnspecified && !ip.isLoopback && !ip.isMulticast && !ip.isLinkLocalUnicast

end IP

/-- `net.IPAddr` -/
structure IPAddr where
  ip : IP
  zone : String
  deriving DecidableEq, Repr

/-! ### The texts of addresses -/

def isHexDigit (c : Char) : Bool := c.isDigit || ('a' ≤ c && c ≤ 'f') || ('A' ≤ c && c ≤ 'F')

def hexDigit (c : Char) : Nat :=
  if c.isDigit then c.toNat - '0'.toNat else if 'a' ≤ c then c.toNat - 'a'.toNat + 10 else c.toNat - 'A'.toNat + 10

/-- The number that digits write in a base. -/
def ofDigits (base : Nat) (s : List Char) : Nat := s.foldl (fun n c => base * n + hexDigit c) 0

/-- The four fields of a dotted address. `val` is the number of the field being read and `digLen` its length. -/
def parseIPv4Fields (val digLen : Nat) (fields : List Nat) : List Char → Option (List Nat)
  | [] => if digLen = 0 ∨ fields.length < 3 then none else some (fields ++ [val])
  | c :: s =>
    if c.isDigit then
      if (digLen = 1 ∧ val = 0) ∨ val * 10 + hexDigit c > 255 then none
      else parseIPv4Fields (val * 10 + hexDigit c) (digLen + 1) fields s
    else if c = '.' then
      if digLen = 0 ∨ s = [] ∨ fields.length = 3 then none else parseIPv4Fields 0 0 (fields ++ [val]) s
    else none

def parseIPv4 (s : List Char) : Option Nat := (parseIPv4Fields 0 0 [] s).map fun fields =>
    fields.foldl (fun n f => 256 * n + f) 0

/-- The 16-bit fields of an address, of which at most `room` are left to read, and where its `::` stands. -/
def parseIPv6Fields : Nat → List Char → List Nat → Option Nat → Option (List Nat × Option Nat)
  | 0, s, fields, ellipsis => if s = [] then some (fields, ellipsis) else none
  | room + 1, s, fields, ellipsis =>
    let digits := s.takeWhile isHexDigit
    if digits = [] ∨ digits.length > 4 then none
    else
      let read := fields ++ [ofDigits 16 digits]
      match s.dropWhile isHexDigit with
      | [] => some (read, ellipsis)
      | c :: rest =>
        if c = '.' then
          -- the last two fields are an embedded IPv4 address
          if (ellipsis = none ∧ fields.length ≠ 6) ∨ fields.length > 6 then none
          else (parseIPv4 s).map fun v4 => (fields ++ [v4 / 2 ^ 16, v4 % 2 ^ 16], ellipsis)
        else if c = ':' then
          match rest with
          | [] => none
          | c :: rest' =>
            if c = ':' then
              if ellipsis.isSome then none
              else if rest' = [] then some (read, some read.length)
              else parseIPv6Fields room rest' read (some read.length)
            else parseIPv6Fields room (c :: rest') read ellipsis
        else none

/-- The `::` stands for at least one field of zeros. -/
def expandEllipsis (fields : List Nat) (ellipsis : Option Nat) : Option (List Nat) :=
  match ellipsis with
  | none => if fields.length < 8 then none else some fields
  | some i =>
    if fields.length < 8 then some (fields.take i ++ List.replicate (8 - fields.length) 0 ++ fields.drop i) else none

def parseIPv6 (s : List Char) : Option Nat :=
  let parsed := match s with
    | c :: c' :: rest =>
      if c = ':' ∧ c' = ':' then
        if rest = [] then some ([], some 0) else parseIPv6Fields 8 rest [] (some 0)
      else parseIPv6Fields 8 s [] none
    | s => parseIPv6Fields 8 s [] none
  (parsed.bind fun (fields, ellipsis) => expandEllipsis fields ellipsis).map fun fields =>
    fields.foldl (fun n f => 2 ^ 16 * n + f) 0

/-- `net.ParseIP`, which takes no address with a zone. -/
def parseIP (s : List Char) : Option IP :=
  if '%' ∈ s then none
  else match s.find? fun c => c = '.' || c = ':' with
    | none => none
    | some c => if c = '.' then (parseIPv4 s).map IP.ofIPv4 else (parseIPv6 s).map IP.ofNat

/-- A number as C writes it: hexadecimal after `0x`, octal after another `0`, else decimal. -/
def inetPart (s : List Char) : Option Nat :=
  let number (base : Nat) (digits : List Char) : Option Nat :=
    if digits = [] ∨ digits.any fun c => !isHexDigit c || base ≤ hexDigit c then none else some (ofDigits base digits)
  match s with
  | '0' :: c :: rest => if c = 'x' ∨ c = 'X' then number 16 rest else number 8 (c :: rest)
  | s => number 10 s

/-- `inet_aton`: one to four numbers, the last of which fills the bytes that are left. -/
def inetAton (s : List Char) : Option IP :=
  ((split '.' s).mapM inetPart).bind fun
    | [a] => if a < 2 ^ 32 then some (.ofIPv4 a) else none
    | [a, b] => if a < 256 ∧ b < 2 ^ 24 then some (.ofIPv4 (a * 2 ^ 24 + b)) else none
    | [a, b, c] => if a < 256 ∧ b < 256 ∧ c < 2 ^ 16 then some (.ofIPv4 (a * 2 ^ 24 + b * 2 ^ 16 + c)) else none
    | [a, b, c, d] =>
      if a < 256 ∧ b < 256 ∧ c < 256 ∧ d < 256 then some (.ofIPv4 (a * 2 ^ 24 + b * 2 ^ 16 + c * 2 ^ 8 + d)) else none
    | _ => none

example : parseIP "192.168.1.254".toList = some (.ofIPv4 0xc0a801fe) ∧
    parseIP "::ffff:10.0.0.1".toList = some (.ofIPv4 0x0a000001) ∧
    parseIP "2001:db8::1".toList = some (.ofNat 0x20010db8000000000000000000000001) ∧ parseIP "127.1".toList = none ∧
    parseIP "010.0.0.1".toList = none ∧ parseIP "1::2::3".toList = none ∧
    parseIP "fe80::1%eth0".toList = none := by decide

example : inetAton "127.1".toList = some (.ofIPv4 0x7f000001) ∧
    inetAton "0177.0.0.1".toList = some (.ofIPv4 0x7f000001) ∧
    inetAton "2130706433".toList = some (.ofIPv4 0x7f000001) ∧ inetAton "example.org".toList = none := by decide

/-! ### What the parser accepts -/

theorem toLower_eq_self {c : Char} (h : ¬(65 ≤ c.toNat ∧ c.toNat ≤ 90)) : c.toLower = c := by
  unfold Char.toLower
  rw [dif_neg]
  rintro ⟨above, below⟩
  exact h ⟨UInt32.le_iff_toNat_le.mp above, UInt32.le_iff_toNat_le.mp below⟩

/-- A property of the upper-case letters, checked one by one. -/
theorem forall_upper {P : Char → Prop} (h : ∀ n : Fin 26, P (Char.ofNat (65 + n))) {c : Char}
    (hc : 65 ≤ c.toNat ∧ c.toNat ≤ 90) : P c := by
  have letter := h ⟨c.toNat - 65, by omega⟩
  rwa [Nat.add_sub_cancel' hc.1, Char.ofNat_toNat] at letter

/-- What the parser asks of a character is the same of its lower case. -/
theorem parser_toLower (c : Char) : c.toLower.isDigit = c.isDigit ∧ isHexDigit c.toLower = isHexDigit c ∧
    hexDigit c.toLower = hexDigit c ∧ ((c.toLower = '.') = (c = '.')) ∧ ((c.toLower = ':') = (c = ':')) ∧
    ((c.toLower = '%') = (c = '%')) := by
  by_cases upper : 65 ≤ c.toNat ∧ c.toNat ≤ 90
  · refine forall_upper (P := fun c => c.toLower.isDigit = c.isDigit ∧ isHexDigit c.toLower = isHexDigit c ∧
      hexDigit c.toLower = hexDigit c ∧ ((c.toLower = '.') = (c = '.')) ∧ ((c.toLower = ':') = (c = ':')) ∧
      ((c.toLower = '%') = (c = '%'))) ?_ upper
    simp only [eq_iff_iff]
    decide
  · rw [toLower_eq_self upper]
    simp

@[simp] theorem isDigit_toLower (c : Char) : c.toLower.isDigit = c.isDigit := (parser_toLower c).1

@[simp] theorem isHexDigit_toLower (c : Char) : isHexDigit c.toLower = isHexDigit c := (parser_toLower c).2.1

@[simp] theorem hexDigit_toLower (c : Char) : hexDigit c.toLower = hexDigit c := (parser_toLower c).2.2.1

@[simp] theorem toLower_eq_dot (c : Char) : (c.toLower = '.') = (c = '.') := (parser_toLower c).2.2.2.1

@[simp] theorem toLower_eq_colon (c : Char) : (c.toLower = ':') = (c = ':') := (parser_toLower c).2.2.2.2.1

@[simp] theorem toLower_eq_percent (c : Char) : (c.toLower = '%') = (c = '%') := (parser_toLower c).2.2.2.2.2

variable {s : List Char}

theorem ofDigits_toLower {base : Nat} : ofDigits base (s.map Char.toLower) = ofDigits base s := by
  simp only [ofDigits, List.foldl_map, hexDigit_toLower]

theorem parseIPv4Fields_toLower {val digLen : Nat} {fields : List Nat} :
    parseIPv4Fields val digLen fields (s.map Char.toLower) = parseIPv4Fields val digLen fields s := by
  induction s generalizing val digLen fields with
  | nil => rfl
  | cons c s ih =>
    simp only [List.map_cons, parseIPv4Fields, isDigit_toLower, hexDigit_toLower, toLower_eq_dot,
      List.map_eq_nil_iff, ih]

theorem parseIPv4_toLower : parseIPv4 (s.map Char.toLower) = parseIPv4 s := by
  rw [parseIPv4, parseIPv4Fields_toLower, parseIPv4]

theorem parseIPv6Fields_toLower {room : Nat} {fields : List Nat} {ellipsis : Option Nat} :
    parseIPv6Fields room (s.map Char.toLower) fields ellipsis = parseIPv6Fields room s fields ellipsis := by
  induction room generalizing s fields ellipsis with
  | zero => simp only [parseIPv6Fields, List.map_eq_nil_iff]
  | succ room ih =>
    have digits : (s.map Char.toLower).takeWhile isHexDigit = (s.takeWhile isHexDigit).map Char.toLower := by
      simp [List.takeWhile_map, Function.comp_def]
    have rest : (s.map Char.toLower).dropWhile isHexDigit = (s.dropWhile isHexDigit).map Char.toLower := by
      simp [List.dropWhile_map, Function.comp_def]
    simp only [parseIPv6Fields, digits, rest, List.map_eq_nil_iff, List.length_map, ofDigits_toLower, parseIPv4_toLower]
    cases s.dropWhile isHexDigit with
    | nil => rfl
    | cons c rest =>
      cases rest with
      | nil => simp only [List.map_cons, List.map_nil, toLower_eq_dot, toLower_eq_colon]
      | cons c' rest' =>
        simp only [List.map_cons, toLower_eq_dot, toLower_eq_colon, List.map_eq_nil_iff]
        rw [← List.map_cons (f := Char.toLower), ih, ih]

theorem parseIPv6_toLower : parseIPv6 (s.map Char.toLower) = parseIPv6 s := by
  have whole : parseIPv6Fields 8 (s.map Char.toLower) [] none = parseIPv6Fields 8 s [] none := parseIPv6Fields_toLower
  unfold parseIPv6
  match s, whole with
  | [], _ => rfl
  | [c], whole =>
    simp only [List.map_cons, List.map_nil] at whole ⊢
    rw [whole]
  | c :: c' :: rest, whole =>
    simp only [List.map_cons] at whole
    simp only [List.map_cons, toLower_eq_colon, List.map_eq_nil_iff, whole, parseIPv6Fields_toLower]

/-- The texts of addresses do not depend on case. -/
theorem parseIP_toLower : parseIP (s.map Char.toLower) = parseIP s := by
  have percent : ('%' ∈ s.map Char.toLower) = ('%' ∈ s) := by simp [List.mem_map]
  have first : (s.map Char.toLower).find? (fun c => c = '.' || c = ':') =
      (s.find? fun c => c = '.' || c = ':').map Char.toLower := by
    have same : (fun c : Char => decide (c = '.') || decide (c = ':')) ∘ Char.toLower = fun c =>
        decide (c = '.') || decide (c = ':') := by
      funext c
      simp only [Function.comp_apply, toLower_eq_dot, toLower_eq_colon]
    rw [List.find?_map, same]
  simp only [parseIP, percent, first, parseIPv4_toLower, parseIPv6_toLower]
  cases s.find? fun c => c = '.' || c = ':' with
  | none => rfl
  | some c => simp only [Option.map_some, toLower_eq_dot]

/-- The characters of the texts of addresses. -/
def isAddressChar (c : Char) : Bool := isHexDigit c || c = '.' || c = ':'

theorem isAddressChar_of_isDigit {c : Char} (h : c.isDigit = true) : isAddressChar c = true := by
  simp [isAddressChar, isHexDigit, h]

theorem isHexDigit_ne_dot {c : Char} (h : isHexDigit c = true) : c ≠ '.' := by
  rintro rfl
  revert h
  decide

/-- A text of address characters that does not end with a dot. -/
def AddressText (s : List Char) : Prop := (∀ c ∈ s, isAddressChar c = true) ∧ s.getLast? ≠ some '.'

theorem AddressText.append {s t : List Char} (hs : ∀ c ∈ s, isAddressChar c = true) (ht : AddressText t) (h : t ≠ []) :
    AddressText (s ++ t) := by
  refine ⟨fun c hc => ?_, ?_⟩
  · rcases List.mem_append.mp hc with hc | hc
    · exact hs c hc
    · exact ht.1 c hc
  · rw [List.getLast?_append_of_ne_nil _ h]
    exact ht.2

theorem parseIPv4Fields_text {val digLen : Nat} {fields result : List Nat}
    (h : parseIPv4Fields val digLen fields s = some result) :
    AddressText s := by
  induction s generalizing val digLen fields with
  | nil => exact ⟨fun _ h => (by cases h), by simp⟩
  | cons c s ih =>
    unfold parseIPv4Fields at h
    split at h
    · rename_i digit
      split at h
      · cases h
      · have rest := ih h
        by_cases hs : s = []
        · subst hs
          refine ⟨fun c' hc' => ?_, ?_⟩
          · rw [List.mem_singleton.mp hc']
            exact isAddressChar_of_isDigit digit
          · rw [List.getLast?_singleton]
            rintro ⟨⟩
            revert digit
            decide
        · refine AddressText.append (s := [c]) (fun c' hc' => ?_) rest hs
          rw [List.mem_singleton.mp hc']
          exact isAddressChar_of_isDigit digit
    · split at h
      · rename_i dot
        split at h
        · cases h
        · rename_i more
          refine AddressText.append (s := [c]) (fun c' hc' => ?_) (ih h) fun hs => more (Or.inr (Or.inl hs))
          rw [List.mem_singleton.mp hc', dot]
          decide
      · cases h

theorem parseIPv6Fields_text {room : Nat} {fields : List Nat} {ellipsis : Option Nat} {result : List Nat × Option Nat}
    (h : parseIPv6Fields room s fields ellipsis = some result) : AddressText s := by
  induction room generalizing s fields ellipsis with
  | zero =>
    unfold parseIPv6Fields at h
    split at h
    · rename_i hs
      subst hs
      exact ⟨fun _ h => (by cases h), by simp⟩
    · cases h
  | succ room ih =>
    have hex : ∀ c ∈ s.takeWhile isHexDigit, isHexDigit c = true := fun c hc => List.mem_takeWhile_imp hc
    have chars : ∀ c ∈ s.takeWhile isHexDigit, isAddressChar c = true := fun c hc => by simp [isAddressChar, hex c hc]
    rw [← List.takeWhile_append_dropWhile (p := isHexDigit) (l := s)]
    unfold parseIPv6Fields at h
    dsimp only at h
    split at h
    · cases h
    rename_i read
    push Not at read
    cases hrest : s.dropWhile isHexDigit with
    | nil =>
      rw [List.append_nil]
      refine ⟨chars, fun last => ?_⟩
      exact isHexDigit_ne_dot (hex _ (List.mem_of_getLast? last)) rfl
    | cons c rest =>
      rw [hrest] at h
      dsimp only at h
      refine AddressText.append chars ?_ (List.cons_ne_nil _ _)
      split at h
      · -- the rest of the text is within an IPv4 address
        split at h
        · cases h
        obtain ⟨v4, hv4, -⟩ := Option.map_eq_some_iff.mp h
        obtain ⟨parsed, hparsed, -⟩ := Option.map_eq_some_iff.mp hv4
        have text := parseIPv4Fields_text hparsed
        rw [← List.takeWhile_append_dropWhile (p := isHexDigit) (l := s), hrest] at text
        refine ⟨fun c' hc' => text.1 c' (List.mem_append_right _ hc'), ?_⟩
        rw [← List.getLast?_append_of_ne_nil _ (List.cons_ne_nil c rest)]
        exact text.2
      · split at h
        · rename_i colon
          have colonChar : ∀ c' ∈ [c], isAddressChar c' = true := fun c' hc' => by
            rw [List.mem_singleton.mp hc', colon]
            decide
          cases rest with
          | nil => cases h
          | cons c' rest' =>
            dsimp only at h
            refine AddressText.append (s := [c]) colonChar ?_ (List.cons_ne_nil c' rest')
            split at h
            · rename_i colon'
              have colonChar' : ∀ c ∈ [c'], isAddressChar c = true := fun c hc => by
                rw [List.mem_singleton.mp hc, colon']
                decide
              split at h
              · cases h
              · by_cases hr : rest' = []
                · subst hr
                  refine ⟨colonChar', ?_⟩
                  rw [List.getLast?_singleton, colon']
                  decide
                · rw [if_neg hr] at h
                  exact AddressText.append (s := [c']) colonChar' (ih h) hr
            · exact ih h
        · cases h

theorem parseIPv6_text {v : Nat} (h : parseIPv6 s = some v) : AddressText s := by
  have whole : ∀ parsed : Option (List Nat × Option Nat),
      ((parsed.bind fun (fields, ellipsis) => expandEllipsis fields ellipsis).map fun fields =>
        fields.foldl (fun n f => 2 ^ 16 * n + f) 0) = some v → ∃ result, parsed = some result := by
    intro parsed h
    cases parsed with
    | none => cases h
    | some result => exact ⟨result, rfl⟩
  unfold parseIPv6 at h
  obtain ⟨result, hresult⟩ := whole _ h
  match s, hresult with
  | [], hresult => exact parseIPv6Fields_text hresult
  | [c], hresult => exact parseIPv6Fields_text hresult
  | c :: c' :: rest, hresult =>
    dsimp only at hresult
    split at hresult
    · rename_i colons
      obtain ⟨rfl, rfl⟩ := colons
      have colons : ∀ c ∈ [':', ':'], isAddressChar c = true := List.all_eq_true.mp (by decide)
      by_cases hr : rest = []
      · subst hr
        exact ⟨colons, by decide⟩
      · rw [if_neg hr] at hresult
        exact AddressText.append (s := [':', ':']) colons (parseIPv6Fields_text hresult) hr
    · exact parseIPv6Fields_text hresult

/-- What `net.ParseIP` accepts. -/
theorem parseIP_text {ip : IP} (h : parseIP s = some ip) : AddressText s := by
  unfold parseIP at h
  split at h
  · cases h
  · split at h
    · cases h
    · split at h
      · obtain ⟨v, hv, -⟩ := Option.map_eq_some_iff.mp h
        obtain ⟨parsed, hparsed, -⟩ := Option.map_eq_some_iff.mp hv
        exact parseIPv4Fields_text hparsed
      · obtain ⟨v, hv, -⟩ := Option.map_eq_some_iff.mp h
        exact parseIPv6_text hv

/-- Address characters are ASCII, and neither spaces nor brackets. -/
theorem isAddressChar_plain {c : Char} (h : isAddressChar c = true) :
    c.toNat < 128 ∧ isSpace c = false ∧ c ∉ ['[', ']'] := by
  have bounded : ∀ c' : Char, c'.toNat < 128 → c ≤ c' → c.toNat < 128 := fun c' hc' hle =>
    lt_of_le_of_lt (UInt32.le_iff_toNat_le.mp hle) hc'
  have ascii : c.toNat < 128 := by
    simp only [isAddressChar, isHexDigit, Bool.or_eq_true, Bool.and_eq_true, decide_eq_true_eq] at h
    rcases h with (((digit | lower) | upper) | dot) | colon
    · simp only [Char.isDigit, Bool.and_eq_true, decide_eq_true_eq] at digit
      exact bounded '9' (by decide) digit.2
    · exact bounded 'f' (by decide) lower.2
    · exact bounded 'F' (by decide) upper.2
    · rw [dot]
      decide
    · rw [colon]
      decide
  have all : ∀ n : Fin 128, isAddressChar (Char.ofNat n) = true →
      isSpace (Char.ofNat n) = false ∧ Char.ofNat n ∉ ['[', ']'] := by decide
  have here := all ⟨c.toNat, ascii⟩
  rw [Char.ofNat_toNat] at here
  exact ⟨ascii, here h⟩

/-- The text of an address is as it is when it is cleaned. -/
theorem clean_parseIP {ip : IP} (m : CaseMap) (h : parseIP s = some ip) :
    trimSpace s = s ∧ trim ['[', ']'] s = s ∧ m.toLower s = s.map Char.toLower ∧
      trimSuffix ['.'] (s.map Char.toLower) = s.map Char.toLower := by
  obtain ⟨chars, last⟩ := parseIP_text h
  refine ⟨trimSpace_eq_self fun c hc => (isAddressChar_plain (chars c hc)).2.1,
    trim_eq_self fun c hc => (isAddressChar_plain (chars c hc)).2.2, ?_, ?_⟩
  · exact List.map_congr_left fun c hc => m.ascii c (isAddressChar_plain (chars c hc)).1
  · rw [trimSuffix, if_neg]
    rintro ⟨front, hfront⟩
    have lowered : (s.map Char.toLower).getLast? = some '.' := by
      rw [← hfront, List.getLast?_append_of_ne_nil _ (by simp)]; rfl
    rw [List.getLast?_map, Option.map_eq_some_iff] at lowered
    obtain ⟨c, hc, hdot⟩ := lowered
    rw [toLower_eq_dot] at hdot
    exact last (hdot ▸ hc)
end Golang
