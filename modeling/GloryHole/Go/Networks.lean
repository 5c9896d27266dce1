import GloryHole.Go.Net
import GloryHole.Support.Bits
import GloryHole.Support.Lists

/-!
# Networks of Go's `net` package

`net.ParseCIDR` and `IPNet.Contains`.  Go keeps an IPv4 address in four or in sixteen bytes and
a mask in as many bytes as the text of its network asks for; `Contains` brings the lengths
together.
-/

namespace GloryHole.Go

open Support.Bits

def to4 (ip : List UInt8) : Option (List UInt8) :=
  if ip.length = 4 then some ip
  else if ip.length = 16 ∧ ip.take 12 = v4InV6Head then some (ip.drop 12)
  else none

def to16 (ip : List UInt8) : Option (List UInt8) :=
  if ip.length = 4 then some (v4InV6Head ++ ip)
  else if ip.length = 16 then some ip
  else none

/-- `CIDRMask`, for a whole number of bytes. -/
def cidrMask (ones bits : Nat) : List UInt8 := onesMask (bits / 8) ones

def maskIP (ip mask : List UInt8) : Option (List UInt8) :=
  let mask :=
    if mask.length = 16 ∧ ip.length = 4 ∧ (mask.take 12).all (· == 0xff) then mask.drop 12 else mask
  let ip :=
    if mask.length = 4 ∧ ip.length = 16 ∧ ip.take 12 = v4InV6Head then ip.drop 12 else ip
  if ip.length ≠ mask.length then none else some (masked ip mask)

structure IPNet where
  ip : List UInt8
  mask : List UInt8
  deriving DecidableEq

/-- The network number and the mask in bytes of one length; nil if they do not fit. -/
def IPNet.networkNumberAndMask (n : IPNet) : List UInt8 × List UInt8 :=
  let ip := (to4 n.ip).getD n.ip
  if ip.length ≠ 4 ∧ ip.length ≠ 16 then ([], [])
  else if n.mask.length = 4 then
    if ip.length = 4 then (ip, n.mask) else ([], [])
  else if n.mask.length = 16 then
    if ip.length = 4 then (ip, n.mask.drop 12) else (ip, n.mask)
  else ([], [])

def IPNet.contains (n : IPNet) (ip : List UInt8) : Bool :=
  let (nn, m) := n.networkNumberAndMask
  let ip := (to4 ip).getD ip
  if ip.length ≠ nn.length then false else masked nn m == masked ip m

def dtoi (s : GoString) : Option (Nat × Nat) :=
  let digits := s.takeWhile isDigit
  if digits = [] then none
  else
    let n := digits.foldl (fun n b => n * 10 + digitVal b) 0
    if n ≥ 0xFFFFFF then none else some (n, digits.length)

/-- `Is4` of a parsed text: the first of `.`, `:` and `%` is a dot. -/
def isDotted (s : GoString) : Bool :=
  (s.find? fun b => b == byte '.' || b == byte ':' || b == byte '%') == some (byte '.')

def bitLen (s : GoString) : Nat := if isDotted s then 32 else 128

def splitCIDR (s : GoString) : Option (GoString × IP × Nat) :=
  match indexByte s (byte '/') with
  | none => none
  | some i =>
    let addr := s.take i
    let mask := s.drop (i + 1)
    match parseIP addr, dtoi mask with
    | some ip, some (n, length) =>
      if length ≠ mask.length ∨ n > bitLen addr then none else some (addr, ip, n)
    | _, _ => none

/-- `net.ParseCIDR` without the address it also returns. -/
def parseCIDR (s : GoString) : Option IPNet :=
  (splitCIDR s).map fun (addr, ip, n) =>
    let m := cidrMask n (bitLen addr)
    ⟨(maskIP ip m).getD [], m⟩

/-! ## Networks as bits -/

/-- The bits of an address, those of its IPv4 address if it is mapped into IPv6. -/
def addressBits (ip : IP) : List Bool := bits ((to4 ip).getD ip)

structure Range where
  start : List Bool
  length : Nat
  deriving DecidableEq

def Range.Contains (r : Range) (ip : IP) : Prop :=
  (addressBits ip).length = r.start.length ∧
    (addressBits ip).take r.length = r.start.take r.length

instance decidableContains (r : Range) (ip : IP) : Decidable (r.Contains ip) :=
  inferInstanceAs (Decidable (_ ∧ _))

/-- The range of a network in IPv4 or IPv6; a network of mapped addresses is one of IPv4. -/
def networkRange (addr : GoString) (ip : IP) (n : Nat) : Range :=
  if isDotted addr then ⟨bits (ip.drop 12), n⟩
  else if isV4 ip ∧ 96 ≤ n then ⟨bits (ip.drop 12), n - 96⟩
  else ⟨bits ip, n⟩

/-! ## What the texts stand for -/

variable {s : GoString} {ip mask : List UInt8}

theorem parseIPv4Fields_length (h : parseIPv4Fields s = some ip) :
    ip.length = 4 := by
  simp only [parseIPv4Fields] at h
  split at h
  · rename_i hlength
    rw [← hlength]
    exact (Support.Lists.mapM_eq_some_iff.mp h).length_eq.symm
  · cases h

theorem parseIPv6_length {ip : IP} (h : parseIPv6 s = some ip) :
    ip.length = 16 := by
  unfold parseIPv6 at h
  generalize (if hasPrefix s (lit "::") = true then (s.drop 2, some 0) else (s, none)) = start at h
  simp only at h
  split at h
  · cases h
    rfl
  · split at h
    · rename_i groups _
      split at h
      · rename_i hlength
        cases h
        exact hlength
      · cases h
    · rename_i groups at' _
      split at h
      · cases h
        simp only [List.length_append, List.length_take, List.length_replicate, List.length_drop]
        omega
      · cases h
    · cases h

theorem parseIP_length {ip : IP} (h : parseIP s = some ip) : ip.length = 16 := by
  simp only [parseIP] at h
  split at h
  · split at h
    · obtain ⟨fields, hfields, rfl⟩ := Option.map_eq_some_iff.mp h
      rw [List.length_append, parseIPv4Fields_length hfields]
      rfl
    · split at h
      · split at h
        · cases h
        · exact parseIPv6_length h
      · cases h
  · cases h

theorem isV4_of_isDotted {ip : IP} (h : parseIP s = some ip) (hs : isDotted s) :
    ip.take 12 = v4InV6Head := by
  simp only [isDotted, beq_iff_eq] at hs
  simp only [parseIP, hs, if_true] at h
  obtain ⟨fields, -, rfl⟩ := Option.map_eq_some_iff.mp h
  rfl

/-- A network whose number and mask have been brought to one length. -/
theorem contains_iff {net : IPNet} {start : List UInt8} {n : Nat}
    (h : net.networkNumberAndMask =
      (masked start (onesMask start.length n), onesMask start.length n))
    (ip : IP) : net.contains ip ↔ Range.Contains ⟨bits start, n⟩ ip := by
  simp only [IPNet.contains, h, Range.Contains, addressBits, length_bits, length_masked,
    length_onesMask, Nat.min_self, masked_masked]
  split
  · rename_i hlength
    simp only [Bool.false_eq_true, false_iff, not_and]
    omega
  · rename_i hlength
    rw [not_not] at hlength
    rw [beq_iff_eq, masked_onesMask_iff n rfl hlength, eq_comm, hlength]
    exact (and_iff_right rfl).symm

/-- Under fewer than 96 ones an IPv6 address is no mapped one. -/
theorem masked_take_eq_head_iff {ip : List UInt8} {n : Nat} (hip : ip.length = 16) :
    (masked ip (onesMask 16 n)).take 12 = v4InV6Head ↔ isV4 ip ∧ 96 ≤ n := by
  have hshort : ∀ n < 96, masked v4InV6Head (onesMask 12 n) ≠ v4InV6Head := by decide
  rw [masked_take, take_onesMask 12 4, isV4, beq_iff_eq]
  have hlength : (ip.take 12).length = 12 := by
    rw [List.length_take, hip]
    rfl
  have hfull (hn : 96 ≤ n) : masked (ip.take 12) (onesMask 12 n) = ip.take 12 := by
    have h := @masked_onesMask_of_le (ip.take 12) n
    rw [hlength] at h
    exact h hn
  constructor
  · intro h
    have hn : 96 ≤ n := by
      by_contra hn
      apply hshort n (by omega)
      rw [← h, masked_masked]
    rw [hfull hn] at h
    exact ⟨h, hn⟩
  · rintro ⟨h, hn⟩
    rw [hfull hn, h]

theorem to4_of_length (h : ip.length = 4) : to4 ip = some ip := if_pos h

theorem to4_mapped (hip : ip.length = 16) (h : ip.take 12 = v4InV6Head) :
    to4 ip = some (ip.drop 12) := by
  rw [to4, if_neg (by omega), if_pos ⟨hip, h⟩]

theorem to4_other (hip : ip.length = 16) (h : ip.take 12 ≠ v4InV6Head) :
    to4 ip = none := by
  rw [to4, if_neg (by omega), if_neg (fun h' => h h'.2)]

theorem networkNumberAndMask_short (hip : ip.length = 4) (hmask : mask.length = 4) :
    IPNet.networkNumberAndMask ⟨ip, mask⟩ = (ip, mask) := by
  simp [IPNet.networkNumberAndMask, to4_of_length hip, hip, hmask]

theorem networkNumberAndMask_mapped (hip : ip.length = 16) (hmask : mask.length = 16)
    (h : ip.take 12 = v4InV6Head) :
    IPNet.networkNumberAndMask ⟨ip, mask⟩ = (ip.drop 12, mask.drop 12) := by
  simp [IPNet.networkNumberAndMask, to4_mapped hip h, hip, hmask]

theorem networkNumberAndMask_other (hip : ip.length = 16) (hmask : mask.length = 16)
    (h : ip.take 12 ≠ v4InV6Head) :
    IPNet.networkNumberAndMask ⟨ip, mask⟩ = (ip, mask) := by
  simp [IPNet.networkNumberAndMask, to4_other hip h, hip, hmask]

theorem maskIP_short (hip : ip.length = 16) (hmask : mask.length = 4)
    (h : ip.take 12 = v4InV6Head) : maskIP ip mask = some (masked (ip.drop 12) mask) := by
  simp [maskIP, hip, hmask, h]

theorem maskIP_long (hip : ip.length = 16) (hmask : mask.length = 16) :
    maskIP ip mask = some (masked ip mask) := by
  simp [maskIP, hip, hmask]

theorem splitCIDR_parseIP {addr : GoString} {ip : IP} {n : Nat}
    (h : splitCIDR s = some (addr, ip, n)) : parseIP addr = some ip := by
  simp only [splitCIDR] at h
  split at h
  · cases h
  · split at h
    · rename_i ip' n' length hip _
      split at h
      · cases h
      · cases h
        exact hip
    · cases h

/-- `Contains` is containment in the range of the network's text. -/
theorem parseCIDR_contains_iff {addr : GoString} {start : IP} {n : Nat}
    (hs : splitCIDR s = some (addr, start, n)) :
    ∃ net, parseCIDR s = some net ∧
      ∀ ip, net.contains ip ↔ (networkRange addr start n).Contains ip := by
  have haddr := splitCIDR_parseIP hs
  have hlength := parseIP_length haddr
  have hdrop : (start.drop 12).length = 4 := by
    rw [List.length_drop, hlength]
  let m := cidrMask n (bitLen addr)
  refine ⟨⟨(maskIP start m).getD [], m⟩, by rw [parseCIDR, hs]; rfl, fun ip => ?_⟩
  by_cases hdotted : isDotted addr = true
  · have hhead := isV4_of_isDotted haddr hdotted
    have hmask : m = onesMask 4 n := by simp [m, cidrMask, bitLen, hdotted]
    rw [hmask, networkRange, if_pos hdotted]
    apply contains_iff
    rw [maskIP_short hlength (length_onesMask 4 n) hhead, hdrop]
    exact networkNumberAndMask_short (by simp [hdrop]) (by simp)
  · have hmask : m = onesMask 16 n := by simp [m, cidrMask, bitLen, hdotted]
    have hip : (masked start (onesMask 16 n)).length = 16 := by simp [hlength]
    have hmapped := @masked_take_eq_head_iff start n hlength
    rw [hmask, networkRange, if_neg hdotted, maskIP_long hlength (length_onesMask 16 n)]
    by_cases hv4 : isV4 start = true ∧ 96 ≤ n
    · rw [if_pos hv4]
      apply contains_iff
      rw [Option.getD_some, networkNumberAndMask_mapped hip (length_onesMask 16 n)
        (hmapped.mpr hv4), masked_drop, drop_onesMask 12 4, hdrop]
    · rw [if_neg hv4]
      apply contains_iff
      rw [Option.getD_some, networkNumberAndMask_other hip (length_onesMask 16 n)
        (fun h => hv4 (hmapped.mp h)), hlength]

end GloryHole.Go
