import GloryHole.Go.Strings

/-!
# Addresses and numbers as texts

`net.SplitHostPort`, `net.JoinHostPort` and `net.ParseIP`, with the tests on a
parsed address that the program uses.  An address is its sixteen-byte form, as
`net.IP` keeps it after `ParseIP`.
-/

namespace GloryHole.Go

/-- `net.SplitHostPort`: host and port, or `none` for any of its errors. -/
def splitHostPort (hostport : GoString) : Option (GoString × GoString) :=
  match lastIndexByte hostport (byte ':') with
  | none => none
  | some i =>
    if hostport.head? = some (byte '[') then
      match indexByte hostport (byte ']') with
      | none => none
      | some close =>
        if close + 1 = i then
          if containsByte (hostport.drop 1) (byte '[') then none
          else if containsByte (hostport.drop (close + 1)) (byte ']') then none
          else some ((hostport.take close).drop 1, hostport.drop (i + 1))
        else none
    else
      let host := hostport.take i
      if containsByte host (byte ':') then none
      else if containsByte hostport (byte '[') then none
      else if containsByte hostport (byte ']') then none
      else some (host, hostport.drop (i + 1))

def joinHostPort (host port : GoString) : GoString :=
  if containsByte host (byte ':') then
    lit "[" ++ host ++ lit "]:" ++ port
  else host ++ lit ":" ++ port

abbrev IP := List UInt8

def isDigit (b : UInt8) : Bool := byte '0' ≤ b && b ≤ byte '9'

def digitVal (b : UInt8) : Nat := b.toNat - '0'.toNat

def parseOctet (field : GoString) : Option UInt8 :=
  if field = [] then none
  else if field.all isDigit then
    if 1 < field.length ∧ field.head? = some (byte '0') then none
    else
      let val := field.foldl (fun acc b => acc * 10 + digitVal b) 0
      if val ≤ 255 then some (UInt8.ofNat val) else none
  else none

def parseIPv4Fields (s : GoString) : Option (List UInt8) :=
  let fields := splitByte (byte '.') s
  if fields.length = 4 then fields.mapM parseOctet else none

def v4InV6Head : List UInt8 := [0, 0, 0, 0, 0, 0, 0, 0, 0, 0, 0xff, 0xff]

def hexVal (b : UInt8) : Option Nat :=
  if isDigit b then some (digitVal b)
  else if byte 'a' ≤ b && b ≤ byte 'f' then some (b.toNat - 'a'.toNat + 10)
  else if byte 'A' ≤ b && b ≤ byte 'F' then some (b.toNat - 'A'.toNat + 10)
  else none

def hexRun (s : GoString) : GoString := s.takeWhile fun b => (hexVal b).isSome

/-- The loop of the IPv6 parser.  `groups` holds the bytes read so far and
`ellipsis` the position of a `::`, both as in the Go code; the fuel is the eight
groups an address can have. -/
def parseIPv6Loop : Nat → GoString → List UInt8 → Option Nat →
    Option (GoString × List UInt8 × Option Nat)
  | 0, s, groups, ellipsis => some (s, groups, ellipsis)
  | fuel + 1, s, groups, ellipsis =>
    let digits := hexRun s
    if digits = [] ∨ 4 < digits.length then none
    else
      let acc := digits.foldl (fun acc b => acc * 16 + (hexVal b).getD 0) 0
      let rest := s.drop digits.length
      if rest.head? = some (byte '.') then
        -- a trailing IPv4 address takes the last four bytes
        if ellipsis = none ∧ groups.length ≠ 12 then none
        else if 16 < groups.length + 4 then none
        else (parseIPv4Fields s).map fun v4 => ([], groups ++ v4, ellipsis)
      else
        let groups := groups ++ [UInt8.ofNat (acc / 256), UInt8.ofNat (acc % 256)]
        match rest with
        | [] => some ([], groups, ellipsis)
        | c :: more =>
          if c ≠ byte ':' then none
          else
            match more with
            | [] => none
            | d :: more' =>
              if d = byte ':' then
                if ellipsis ≠ none then none
                else if more' = [] then some ([], groups, some groups.length)
                else parseIPv6Loop fuel more' groups (some groups.length)
              else parseIPv6Loop fuel more groups ellipsis

def parseIPv6 (s : GoString) : Option IP :=
  let (s', ellipsis) :=
    if hasPrefix s (lit "::") then (s.drop 2, some 0) else (s, none)
  if ellipsis = some 0 ∧ s' = [] then some (List.replicate 16 0)
  else
    match parseIPv6Loop 8 s' [] ellipsis with
    | some ([], groups, none) => if groups.length = 16 then some groups else none
    | some ([], groups, some at') =>
      if groups.length < 16 then
        some (groups.take at' ++ List.replicate (16 - groups.length) 0 ++ groups.drop at')
      else none
    | _ => none

/-- `net.ParseIP`: the first of `.`, `:` and `%` decides the family. -/
def parseIP (s : GoString) : Option IP :=
  match s.find? fun b => b == byte '.' || b == byte ':' || b == byte '%' with
  | some b =>
    if b = byte '.' then (parseIPv4Fields s).map (v4InV6Head ++ ·)
    else if b = byte ':' then
      if containsByte s (byte '%') then none else parseIPv6 s
    else none
  | none => none

def isV4 (ip : IP) : Bool := ip.take 12 == v4InV6Head

def isLoopback (ip : IP) : Bool :=
  if isV4 ip then (ip.drop 12).head? == some 127
  else ip == List.replicate 15 0 ++ [1]

/-!
## Numbers

`strconv.Itoa` and `strconv.Atoi` on an `int` of 64 bits.
-/

def itoa (n : Int) : GoString :=
  (if n < 0 then [byte '-'] else []) ++
    (Nat.toDigits 10 n.natAbs).map fun c => UInt8.ofNat c.toNat

def splitSign : GoString → Bool × GoString
  | [] => (false, [])
  | b :: rest =>
    if b = byte '-' then (true, rest)
    else if b = byte '+' then (false, rest)
    else (false, b :: rest)

def atoi (s : GoString) : Option Int :=
  let (negative, digits) := splitSign s
  if digits = [] ∨ ¬ digits.all isDigit then none
  else
    let magnitude : Int := digits.foldl (fun n b => 10 * n + digitVal b) 0
    let n := if negative then -magnitude else magnitude
    if -2 ^ 63 ≤ n ∧ n < 2 ^ 63 then some n else none

theorem isDigit_ofNat {c : Char} (h : c.isDigit) : isDigit (UInt8.ofNat c.toNat) := by
  simp only [Char.isDigit, Bool.and_eq_true, decide_eq_true_eq] at h
  have hlow : 48 ≤ c.toNat := h.1
  have hhigh : c.toNat ≤ 57 := h.2
  simp only [isDigit, byte, Bool.and_eq_true, decide_eq_true_eq, UInt8.le_iff_toNat_le]
  simp
  omega

theorem itoa_ne_nil (n : Int) : itoa n ≠ [] :=
  List.append_ne_nil_of_right_ne_nil _ (by simp [Nat.toDigits_ne_nil])

theorem mem_itoa {n : Int} {b : UInt8} (h : b ∈ itoa n) : isDigit b ∨ b = byte '-' := by
  rcases List.mem_append.mp h with hb | hb
  · split at hb
    · exact Or.inr (List.mem_singleton.mp hb)
    · cases hb
  · obtain ⟨c, hc, rfl⟩ := List.mem_map.mp hb
    exact Or.inl (isDigit_ofNat (Nat.isDigit_of_mem_toDigits (by decide) (by decide) hc))

end GloryHole.Go
