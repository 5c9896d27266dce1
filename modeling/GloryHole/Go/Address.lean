import GloryHole.Go.Labels
import GloryHole.Go.Networks
import GloryHole.Go.Utf8

/-!
# Addresses as texts

`IP.String` and the `String` of a UDP or TCP address, and that `net.SplitHostPort` and
`net.ParseIP` read the address back.
-/

namespace GloryHole.Go

/-! ## Printing -/

def hexGroup (x : Nat) : GoString :=
  (if x ≥ 0x1000 then [hexDigit (x / 4096)] else []) ++
    (if x ≥ 0x100 then [hexDigit (x / 256 % 16)] else []) ++
    (if x ≥ 0x10 then [hexDigit (x / 16 % 16)] else []) ++ [hexDigit (x % 16)]

def groups : List UInt8 → List Nat
  | a :: b :: rest => (a.toNat * 256 + b.toNat) :: groups rest
  | _ => []

def leadingZeros (gs : List Nat) : Nat := (gs.takeWhile (· == 0)).length

/-- The first longest run of at least two zero groups: where it begins and where it ends. -/
def zeroRun (gs : List Nat) : Option (Nat × Nat) :=
  (List.range gs.length).foldl (fun best i =>
    let l := leadingZeros (gs.drop i)
    if l ≥ 2 ∧ l > best.elim 0 (fun run => run.2 - run.1) then some (i, i + l) else best) none

def colonJoin (gs : List Nat) : GoString := join (lit ":") (gs.map hexGroup)

def ipv6Text (ip : IP) : GoString :=
  let gs := groups ip
  match zeroRun gs with
  | none => colonJoin gs
  | some (i, j) => colonJoin (gs.take i) ++ lit "::" ++ colonJoin (gs.drop j)

def dottedText (ip : List UInt8) : GoString :=
  join (lit ".") (ip.map fun b => itoa b.toNat)

def ipText (ip : List UInt8) : GoString :=
  match to4 ip with
  | some v4 => dottedText v4
  | none => ipv6Text ip

structure SocketAddr where
  ip : IP
  zone : GoString
  port : UInt16
  length_ip : ip.length = 16
  deriving DecidableEq

def SocketAddr.text (a : SocketAddr) : GoString :=
  let port := itoa a.port.toNat
  if a.zone ≠ [] then joinHostPort (ipText a.ip ++ lit "%" ++ a.zone) port
  else joinHostPort (ipText a.ip) port

/-! ## Groups of an IPv6 address -/

theorem hexVal_hexDigit {d : Nat} (h : d < 16) : hexVal (hexDigit d) = some d := by
  have hall : ∀ d < 16, hexVal (hexDigit d) = some d := by decide
  exact hall d h

def groupBytes (x : Nat) : List UInt8 := [UInt8.ofNat (x / 256), UInt8.ofNat (x % 256)]

theorem hexVal_digits {x : Nat} (hx : x < 65536) :
    hexVal (hexDigit (x / 4096)) = some (x / 4096) ∧
      ∀ y, hexVal (hexDigit (y % 16)) = some (y % 16) :=
  ⟨hexVal_hexDigit (by omega), fun y => hexVal_hexDigit (Nat.mod_lt y (by decide))⟩

theorem hexGroup_isHex {x : Nat} (hx : x < 65536) : ∀ b ∈ hexGroup x, (hexVal b).isSome := by
  unfold hexGroup
  split_ifs <;> simp [hexVal_digits hx]

theorem hexGroup_length (x : Nat) : 1 ≤ (hexGroup x).length ∧ (hexGroup x).length ≤ 4 := by
  unfold hexGroup
  split_ifs <;> simp

theorem hexGroup_ne_nil (x : Nat) : hexGroup x ≠ [] := by
  unfold hexGroup
  simp

theorem hexGroup_value {x : Nat} (hx : x < 65536) :
    (hexGroup x).foldl (fun acc b => acc * 16 + (hexVal b).getD 0) 0 = x := by
  unfold hexGroup
  split_ifs <;> simp only [List.nil_append, List.cons_append, List.foldl_cons, List.foldl_nil,
    hexVal_digits hx, Option.getD_some] <;> omega

theorem hexRun_hexGroup {x : Nat} (hx : x < 65536) {rest : GoString}
    (hrest : hexRun rest = []) : hexRun (hexGroup x ++ rest) = hexGroup x := by
  rw [hexRun] at hrest ⊢
  rw [List.takeWhile_append_of_pos (hexGroup_isHex hx), hrest, List.append_nil]

theorem hexRun_colon (rest : GoString) : hexRun (byte ':' :: rest) = [] := rfl

theorem groups_length (ip : List UInt8) : (groups ip).length = ip.length / 2 := by
  induction ip using groups.induct with
  | case1 a b rest ih =>
    rw [groups, List.length_cons, ih, List.length_cons, List.length_cons]
    omega
  | case2 ip h =>
    rw [groups]
    · have hlength : ip.length < 2 := by
        rcases ip with _ | ⟨a, _ | ⟨b, rest⟩⟩
        · exact Nat.zero_lt_two
        · exact Nat.one_lt_two
        · exact (h a b rest rfl).elim
      rw [List.length_nil, Nat.div_eq_of_lt hlength]
    · exact h

theorem groups_lt {ip : List UInt8} : ∀ g ∈ groups ip, g < 65536 := by
  induction ip using groups.induct with
  | case1 a b rest ih =>
    intro g hg
    rcases List.mem_cons.mp hg with rfl | hg
    · have ha := a.toNat_lt
      have hb := b.toNat_lt
      omega
    · exact ih g hg
  | case2 ip h =>
    intro g hg
    rw [groups] at hg
    · cases hg
    · exact h

theorem groups_bytes {ip : List UInt8} (h : ip.length % 2 = 0) :
    (groups ip).flatMap groupBytes = ip := by
  induction ip using groups.induct with
  | case1 a b rest ih =>
    have hb := b.toNat_lt
    have hdiv : (a.toNat * 256 + b.toNat) / 256 = a.toNat := by omega
    have hmod : (a.toNat * 256 + b.toNat) % 256 = b.toNat := by omega
    have hrest : rest.length % 2 = 0 := by
      rw [List.length_cons, List.length_cons] at h
      omega
    rw [groups, List.flatMap_cons, ih hrest, groupBytes, hdiv, hmod, UInt8.ofNat_toNat,
      UInt8.ofNat_toNat]
    rfl
  | case2 ip hshort =>
    have hnil := groups_length ip
    rw [groups] at hnil ⊢
    · rw [List.length_nil] at hnil
      have hlength : ip.length = 0 := by omega
      rw [List.length_eq_zero_iff.mp hlength]
      rfl
    · exact hshort
    · exact hshort

theorem groupBytes_zeros (n : Nat) :
    (List.replicate n 0).flatMap groupBytes = List.replicate (2 * n) 0 := by
  have hzero : groupBytes 0 = List.replicate 2 0 := rfl
  rw [List.flatMap_replicate, hzero, List.flatten_replicate_replicate, Nat.mul_comm]

theorem groupBytes_length (gs : List Nat) : (gs.flatMap groupBytes).length = 2 * gs.length := by
  simp [List.length_flatMap, groupBytes, Nat.mul_comm]

/-! ## The longest run of zeros -/

theorem take_leadingZeros (gs : List Nat) :
    gs.take (leadingZeros gs) = List.replicate (leadingZeros gs) 0 := by
  unfold leadingZeros
  rw [← List.prefix_iff_eq_take.mp (List.takeWhile_prefix _)]
  exact List.eq_replicate_of_mem fun g hg => by simpa using List.mem_takeWhile_imp hg

theorem leadingZeros_le (gs : List Nat) : leadingZeros gs ≤ gs.length :=
  (List.takeWhile_prefix _).length_le

structure ZeroRun (gs : List Nat) (run : Nat × Nat) : Prop where
  two_le : run.1 + 2 ≤ run.2
  le_length : run.2 ≤ gs.length
  zeros : (gs.drop run.1).take (run.2 - run.1) = List.replicate (run.2 - run.1) 0

variable {gs : List Nat} {ip : IP} {b : UInt8} {port host : GoString}

theorem zeroRun_spec {run : Nat × Nat} (h : zeroRun gs = some run) :
    ZeroRun gs run := by
  -- The invariant of the loop: the best run so far is one.
  have hloop (is : List Nat) (hbounds : ∀ i ∈ is, i < gs.length) (best : Option (Nat × Nat))
      (hbest : ∀ run, best = some run → ZeroRun gs run) :
      ∀ run, is.foldl (fun best i =>
        let l := leadingZeros (gs.drop i)
        if l ≥ 2 ∧ l > best.elim 0 (fun run => run.2 - run.1) then some (i, i + l) else best) best =
          some run → ZeroRun gs run := by
    induction is generalizing best with
    | nil => exact hbest
    | cons i is ih =>
      rw [List.forall_mem_cons] at hbounds
      apply ih hbounds.2
      intro run hrun
      simp only at hrun
      split at hrun
      · rename_i hl
        cases hrun
        have hle := leadingZeros_le (gs.drop i)
        rw [List.length_drop] at hle
        refine ⟨by omega, by omega, ?_⟩
        rw [Nat.add_sub_cancel_left]
        exact take_leadingZeros _
      · exact hbest run hrun
  apply hloop (List.range gs.length) (fun i hi => List.mem_range.mp hi) none _ run h
  intro run hrun
  cases hrun

theorem ZeroRun.split {run : Nat × Nat} (h : ZeroRun gs run) :
    gs.take run.1 ++ List.replicate (run.2 - run.1) 0 ++ gs.drop run.2 = gs := by
  have htwo := h.two_le
  rw [← h.zeros, List.append_assoc]
  conv_rhs => rw [← List.take_append_drop run.1 gs,
    ← List.take_append_drop (run.2 - run.1) (gs.drop run.1), List.drop_drop]
  congr 3
  omega

/-! ## Reading the groups -/

theorem parseIPv6Loop_group {fuel x : Nat} {acc rest : List UInt8} {e : Option Nat}
    (hx : x < 65536) (hrest : rest = [] ∨ ∃ more, rest = byte ':' :: more) :
    parseIPv6Loop (fuel + 1) (hexGroup x ++ rest) acc e =
      match rest with
      | [] => some ([], acc ++ groupBytes x, e)
      | _ :: [] => none
      | _ :: d :: more =>
        if d = byte ':' then
          if e ≠ none then none
          else if more = [] then some ([], acc ++ groupBytes x, some (acc ++ groupBytes x).length)
          else parseIPv6Loop fuel more (acc ++ groupBytes x) (some (acc ++ groupBytes x).length)
        else parseIPv6Loop fuel (d :: more) (acc ++ groupBytes x) e := by
  have hlength := hexGroup_length x
  have hshort : ¬ (hexGroup x = [] ∨ 4 < (hexGroup x).length) := by
    rw [not_or]
    exact ⟨hexGroup_ne_nil x, by omega⟩
  have hdrop : (hexGroup x ++ rest).drop (hexGroup x).length = rest := List.drop_left
  rcases hrest with rfl | ⟨more, rfl⟩
  · have hrun : hexRun (hexGroup x ++ []) = hexGroup x := hexRun_hexGroup hx rfl
    simp only [parseIPv6Loop, hrun, if_neg hshort, hdrop, hexGroup_value hx]
    rfl
  · have hrun := hexRun_hexGroup hx (hexRun_colon more)
    have hdot : ¬ some (byte ':') = some (byte '.') := by decide
    simp only [parseIPv6Loop, hrun, if_neg hshort, hdrop, hexGroup_value hx, List.head?_cons,
      if_neg hdot, ne_eq, not_true_eq_false, if_false, groupBytes]
    cases more with
    | nil | cons d more => rfl

theorem colonJoin_cons_cons (g h : Nat) (gs : List Nat) :
    colonJoin (g :: h :: gs) = hexGroup g ++ byte ':' :: colonJoin (h :: gs) := by
  simp only [colonJoin, List.map_cons, join, List.append_assoc]
  rfl

/-- A joined text begins with a digit. -/
theorem exists_colonJoin_eq {g : Nat} (gs : List Nat) (hg : g < 65536) :
    ∃ d more, colonJoin (g :: gs) = d :: more ∧ d ≠ byte ':' := by
  obtain ⟨d, ds, hds⟩ := List.exists_cons_of_ne_nil (hexGroup_ne_nil g)
  have hd := hexGroup_isHex hg d (by simp [hds])
  have hne : d ≠ byte ':' := by
    rintro rfl
    exact absurd hd (by decide)
  cases gs with
  | nil => exact ⟨d, ds, hds, hne⟩
  | cons h gs =>
    rw [colonJoin_cons_cons, hds]
    exact ⟨d, _, rfl, hne⟩

theorem parseIPv6Loop_colonJoin {fuel : Nat} {acc : List UInt8} {e : Option Nat} {g : Nat}
    (hgs : ∀ x ∈ g :: gs, x < 65536) (hfuel : gs.length < fuel) :
    parseIPv6Loop fuel (colonJoin (g :: gs)) acc e =
      some ([], acc ++ (g :: gs).flatMap groupBytes, e) := by
  induction gs generalizing fuel acc g with
  | nil =>
    obtain ⟨fuel, rfl⟩ := Nat.exists_eq_add_one_of_ne_zero (by omega : fuel ≠ 0)
    rw [List.forall_mem_singleton] at hgs
    have hgroup := @parseIPv6Loop_group fuel g acc [] e hgs (Or.inl rfl)
    rw [List.append_nil] at hgroup
    simpa [colonJoin, join] using hgroup
  | cons h gs ih =>
    obtain ⟨fuel, rfl⟩ := Nat.exists_eq_add_one_of_ne_zero (by omega : fuel ≠ 0)
    rw [List.forall_mem_cons] at hgs
    obtain ⟨d, more, hjoin, hd⟩ := exists_colonJoin_eq gs (hgs.2 h (by simp))
    rw [colonJoin_cons_cons, parseIPv6Loop_group hgs.1 (Or.inr ⟨_, rfl⟩), hjoin]
    simp only [if_neg hd]
    rw [← hjoin, ih hgs.2 (by simpa using hfuel), @List.flatMap_cons _ _ g, List.append_assoc]

/-- A text with a double colon after its first groups. -/
theorem parseIPv6Loop_ellipsis {fuel : Nat} {acc : List UInt8} {g : Nat} {hs : List Nat}
    (hgs : ∀ x ∈ g :: gs, x < 65536) (hhs : ∀ x ∈ hs, x < 65536)
    (hfuel : gs.length + hs.length < fuel) :
    parseIPv6Loop fuel (colonJoin (g :: gs) ++ lit "::" ++ colonJoin hs) acc none =
      some ([], acc ++ (g :: gs).flatMap groupBytes ++ hs.flatMap groupBytes,
        some (acc ++ (g :: gs).flatMap groupBytes).length) := by
  induction gs generalizing fuel acc g with
  | nil =>
    obtain ⟨fuel, rfl⟩ := Nat.exists_eq_add_one_of_ne_zero (by omega : fuel ≠ 0)
    rw [List.forall_mem_singleton] at hgs
    have hcolons : lit "::" = [byte ':', byte ':'] := rfl
    have hgroup := @parseIPv6Loop_group fuel g acc (byte ':' :: byte ':' :: colonJoin hs) none
      hgs (Or.inr ⟨_, rfl⟩)
    have htext : colonJoin [g] ++ lit "::" ++ colonJoin hs =
        hexGroup g ++ byte ':' :: byte ':' :: colonJoin hs := by
      simp [colonJoin, join, hcolons]
    rw [htext, hgroup]
    simp only [if_true, ne_eq, not_true_eq_false, if_false, List.flatMap_cons, List.flatMap_nil,
      List.append_nil]
    cases hs with
    | nil => simp [colonJoin, join]
    | cons h hs =>
      obtain ⟨d, more, hjoin, -⟩ := exists_colonJoin_eq hs (hhs h (by simp))
      rw [if_neg (by rw [hjoin]; exact List.cons_ne_nil d more),
        parseIPv6Loop_colonJoin hhs (by simpa using hfuel)]
  | cons h gs ih =>
    obtain ⟨fuel, rfl⟩ := Nat.exists_eq_add_one_of_ne_zero (by omega : fuel ≠ 0)
    rw [List.forall_mem_cons] at hgs
    obtain ⟨d, more, hjoin, hd⟩ := exists_colonJoin_eq gs (hgs.2 h (by simp))
    have hrest := @ih fuel (acc ++ groupBytes g) h hgs.2 (by simp at hfuel; omega)
    have htext : colonJoin (g :: h :: gs) ++ lit "::" ++ colonJoin hs =
        hexGroup g ++ byte ':' :: (colonJoin (h :: gs) ++ lit "::" ++ colonJoin hs) := by
      rw [colonJoin_cons_cons]
      simp
    rw [htext, parseIPv6Loop_group hgs.1 (Or.inr ⟨_, rfl⟩)]
    rw [hjoin] at hrest ⊢
    simp only [List.cons_append, if_neg hd] at hrest ⊢
    rw [hrest, List.flatMap_cons, List.append_assoc acc]
    rfl

theorem not_hasPrefix_colons {s : GoString} {d : UInt8} {more : GoString} (hs : s = d :: more)
    (hd : d ≠ byte ':') : hasPrefix s (lit "::") = false := by
  subst hs
  have hcolons : lit "::" = [byte ':', byte ':'] := rfl
  rw [hasPrefix, hcolons, List.isPrefixOf_cons_cons, beq_eq_false_iff_ne.mpr hd.symm,
    Bool.false_and]

/-- The bytes of the groups on both sides of the zeros, put around them. -/
theorem parseIPv6_elided {hs : List Nat} (hgs : ∀ x ∈ gs, x < 65536) (hhs : ∀ x ∈ hs, x < 65536)
    (hlength : gs.length + hs.length < 8) :
    parseIPv6 (colonJoin gs ++ lit "::" ++ colonJoin hs) =
      some (gs.flatMap groupBytes ++ List.replicate (16 - 2 * (gs.length + hs.length)) 0 ++
        hs.flatMap groupBytes) := by
  have hbytes := groupBytes_length gs
  have hbytes' := groupBytes_length hs
  cases gs with
  | nil =>
    have hstart : hasPrefix (lit "::" ++ colonJoin hs) (lit "::") = true :=
      List.isPrefixOf_iff_prefix.mpr (List.prefix_append _ _)
    have hdrop : (lit "::" ++ colonJoin hs).drop 2 = colonJoin hs := rfl
    change parseIPv6 (lit "::" ++ colonJoin hs) = _
    simp only [parseIPv6, hstart, if_true, hdrop, true_and, List.flatMap_nil, List.nil_append,
      List.length_nil, Nat.zero_add]
    cases hs with
    | nil => rfl
    | cons h hs =>
      obtain ⟨d, more, hjoin, -⟩ := exists_colonJoin_eq hs (hhs h (by simp))
      rw [if_neg (by rw [hjoin]; exact List.cons_ne_nil d more),
        parseIPv6Loop_colonJoin hhs (by simp at hlength; omega)]
      simp only [List.nil_append, List.length_nil, Nat.zero_add] at hlength ⊢
      rw [if_pos (by omega), hbytes']
      rfl
  | cons g gs =>
    obtain ⟨d, more, hjoin, hd⟩ := exists_colonJoin_eq gs (hgs g (by simp))
    have hstart : hasPrefix (colonJoin (g :: gs) ++ lit "::" ++ colonJoin hs) (lit "::") =
        false := by
      rw [hjoin]
      exact not_hasPrefix_colons rfl hd
    simp only [parseIPv6, hstart, Bool.false_eq_true, if_false, reduceCtorEq, false_and]
    rw [parseIPv6Loop_ellipsis hgs hhs (by simp at hlength; omega)]
    simp only [List.nil_append, List.length_append, hbytes, hbytes']
    rw [if_pos (by omega), ← hbytes, List.take_left, List.drop_left, hbytes, Nat.mul_add]

theorem parseIPv6_ipv6Text (hip : ip.length = 16) :
    parseIPv6 (ipv6Text ip) = some ip := by
  have hlength : (groups ip).length = 8 := by rw [groups_length, hip]
  have hlt := @groups_lt ip
  have hbytes := @groups_bytes ip (by rw [hip])
  simp only [ipv6Text]
  cases hrun : zeroRun (groups ip) with
  | none =>
    obtain ⟨g, gs, hgs⟩ := List.exists_cons_of_length_eq_add_one hlength
    rw [hgs] at hlt hlength hbytes ⊢
    obtain ⟨d, more, hjoin, hd⟩ := exists_colonJoin_eq gs (hlt g (by simp))
    simp only [parseIPv6, not_hasPrefix_colons hjoin hd, Bool.false_eq_true, if_false,
      reduceCtorEq, false_and]
    rw [parseIPv6Loop_colonJoin hlt (by simp at hlength; omega), List.nil_append, hbytes]
    simp only [if_pos hip]
  | some run =>
    obtain ⟨i, j⟩ := run
    have hspec := zeroRun_spec hrun
    have hsplit := hspec.split
    obtain ⟨htwo, hle, -⟩ := hspec
    simp only at htwo hle hsplit ⊢
    have hparts := congrArg (List.flatMap groupBytes) hsplit
    rw [hbytes, List.flatMap_append, List.flatMap_append, groupBytes_zeros] at hparts
    have htake : ((groups ip).take i).length = i := by
      rw [List.length_take]
      omega
    have hdrop : ((groups ip).drop j).length = 8 - j := by
      rw [List.length_drop, hlength]
    rw [parseIPv6_elided (fun x hx => hlt x (List.mem_of_mem_take hx))
      (fun x hx => hlt x (List.mem_of_mem_drop hx)) (by omega), htake, hdrop]
    have hzeros : 16 - 2 * (i + (8 - j)) = 2 * (j - i) := by omega
    rw [hzeros, hparts]

/-! ## Whole addresses -/

def isHexOrColon (b : UInt8) : Bool := (hexVal b).isSome || b == byte ':'

theorem mem_join {sep : GoString} {parts : List GoString} (h : b ∈ join sep parts) :
    b ∈ sep ∨ ∃ part ∈ parts, b ∈ part := by
  induction parts using join.induct with
  | case1 => cases h
  | case2 part => exact Or.inr ⟨part, by simp, h⟩
  | case3 part rest hrest ih =>
    rw [join] at h
    · rcases List.mem_append.mp h with h | h
      · rcases List.mem_append.mp h with h | h
        · exact Or.inr ⟨part, by simp, h⟩
        · exact Or.inl h
      · rcases ih h with h | ⟨part', hmem, h⟩
        · exact Or.inl h
        · exact Or.inr ⟨part', List.mem_cons_of_mem _ hmem, h⟩
    · exact hrest

theorem colonJoin_bytes (hgs : ∀ x ∈ gs, x < 65536) :
    ∀ b ∈ colonJoin gs, isHexOrColon b := by
  intro b hb
  rcases mem_join hb with hb | ⟨part, hpart, hb⟩
  · have hcolon : lit ":" = [byte ':'] := rfl
    rw [hcolon, List.mem_singleton] at hb
    simp [isHexOrColon, hb]
  · obtain ⟨x, hx, rfl⟩ := List.mem_map.mp hpart
    simp [isHexOrColon, hexGroup_isHex (hgs x hx) b hb]

theorem ipv6Text_bytes (ip : IP) : ∀ b ∈ ipv6Text ip, isHexOrColon b := by
  have hlt := @groups_lt ip
  simp only [ipv6Text]
  split
  · exact colonJoin_bytes hlt
  · rename_i i j _
    have hcolons : ∀ b ∈ lit "::", isHexOrColon b := by
      have hlit : lit "::" = [byte ':', byte ':'] := rfl
      simp [hlit, isHexOrColon]
    simp only [List.forall_mem_append]
    exact ⟨⟨colonJoin_bytes fun x hx => hlt x (List.mem_of_mem_take hx), hcolons⟩,
      colonJoin_bytes fun x hx => hlt x (List.mem_of_mem_drop hx)⟩

theorem colon_mem_ipv6Text (hip : ip.length = 16) : byte ':' ∈ ipv6Text ip := by
  simp only [ipv6Text]
  split
  · have hlength : (groups ip).length = 8 := by rw [groups_length, hip]
    obtain ⟨g, rest, hgroups⟩ := List.exists_cons_of_length_eq_add_one hlength
    rw [hgroups, List.length_cons, Nat.add_right_cancel_iff] at hlength
    obtain ⟨h, gs, rfl⟩ := List.exists_cons_of_length_eq_add_one hlength
    rw [hgroups, colonJoin_cons_cons]
    simp
  · have hcolons : byte ':' ∈ lit "::" := by decide
    simp [hcolons]

theorem parseIP_ipv6Text (hip : ip.length = 16) : parseIP (ipv6Text ip) = some ip := by
  have hbytes := ipv6Text_bytes ip
  have hfind : (ipv6Text ip).find? (fun b => b == byte '.' || b == byte ':' || b == byte '%') =
      some (byte ':') := by
    apply Support.Lists.find?_eq_some_of_only (colon_mem_ipv6Text hip) (by decide)
    intro b hb hsep
    have hhex := hbytes b hb
    simp only [Bool.or_eq_true, beq_iff_eq] at hsep
    rcases hsep with (rfl | rfl) | rfl
    · exact absurd hhex (by decide)
    · rfl
    · exact absurd hhex (by decide)
  have hzone : containsByte (ipv6Text ip) (byte '%') = false := by
    rw [containsByte, List.contains_eq_mem, decide_eq_false_iff_not]
    intro hmem
    exact absurd (hbytes _ hmem) (by decide)
  have hdot : byte ':' ≠ byte '.' := by decide
  simp only [parseIP, hfind, if_neg hdot, if_true, hzone, Bool.false_eq_true, if_false]
  exact parseIPv6_ipv6Text hip

/-- The octets of a dotted text. -/
theorem splitByte_join {part : GoString} {parts : List GoString}
    (hparts : ∀ p ∈ part :: parts, b ∉ p) :
    splitByte b (join [b] (part :: parts)) = part :: parts := by
  induction parts generalizing part with
  | nil => exact splitByte_of_not_mem (hparts part (by simp))
  | cons p parts ih =>
    rw [List.forall_mem_cons] at hparts
    rw [join, List.append_assoc, List.singleton_append, splitByte_append hparts.1, ih hparts.2]
    exact List.cons_ne_nil p parts

theorem parseOctet_itoa (b : UInt8) : parseOctet (itoa b.toNat) = some b := by
  have hall : ∀ n < 256, parseOctet (itoa (n : Nat)) = some (UInt8.ofNat n) := by
    decide +kernel
  rw [hall b.toNat b.toNat_lt, UInt8.ofNat_toNat]

theorem itoa_bytes {n : Nat} : ∀ b ∈ itoa n, isDigit b := by
  intro b hb
  rw [itoa, if_neg (by omega), List.nil_append] at hb
  obtain ⟨c, hc, rfl⟩ := List.mem_map.mp hb
  exact isDigit_ofNat (Nat.isDigit_of_mem_toDigits (by decide) (by decide) hc)

theorem parseIPv4Fields_dottedText {ip : List UInt8} (hip : ip.length = 4) :
    parseIPv4Fields (dottedText ip) = some ip := by
  have hdot : lit "." = [byte '.'] := rfl
  have hsplit : splitByte (byte '.') (dottedText ip) = ip.map fun b => itoa b.toNat := by
    obtain ⟨a, rest, rfl⟩ := List.exists_cons_of_length_eq_add_one hip
    rw [dottedText, hdot, List.map_cons]
    apply splitByte_join
    intro p hp hmem
    rw [← List.map_cons (f := fun b : UInt8 => itoa b.toNat)] at hp
    obtain ⟨b, -, rfl⟩ := List.mem_map.mp hp
    exact absurd (itoa_bytes _ hmem) (by decide)
  simp only [parseIPv4Fields, hsplit, List.length_map, hip, if_true]
  rw [Support.Lists.mapM_eq_some_iff, List.forall₂_map_left_iff, List.forall₂_same]
  exact fun b _ => parseOctet_itoa b

theorem dottedText_bytes (ip : List UInt8) : ∀ b ∈ dottedText ip, isDigit b ∨ b = byte '.' := by
  intro b hb
  rcases mem_join hb with hb | ⟨part, hpart, hb⟩
  · have hdot : lit "." = [byte '.'] := rfl
    rw [hdot, List.mem_singleton] at hb
    exact Or.inr hb
  · obtain ⟨x, -, rfl⟩ := List.mem_map.mp hpart
    exact Or.inl (itoa_bytes b hb)

theorem parseIP_dottedText {ip : List UInt8} (hip : ip.length = 4) :
    parseIP (dottedText ip) = some (v4InV6Head ++ ip) := by
  have hfind : (dottedText ip).find? (fun b => b == byte '.' || b == byte ':' || b == byte '%') =
      some (byte '.') := by
    have hmem : byte '.' ∈ dottedText ip := by
      obtain ⟨a, rest, rfl⟩ := List.exists_cons_of_length_eq_add_one hip
      obtain ⟨b, rest, rfl⟩ := List.exists_cons_of_length_eq_add_one (Nat.succ.inj hip)
      have hdot : byte '.' ∈ lit "." := by decide
      simp [dottedText, join, hdot]
    apply Support.Lists.find?_eq_some_of_only hmem (by decide)
    intro b hb hsep
    have hbyte := dottedText_bytes ip b hb
    simp only [Bool.or_eq_true, beq_iff_eq] at hsep
    rcases hsep with (rfl | rfl) | rfl
    · rfl
    · exact absurd hbyte (by decide)
    · exact absurd hbyte (by decide)
  simp only [parseIP, hfind, if_true, parseIPv4Fields_dottedText hip, Option.map_some]

/-- `ParseIP` reads what `String` writes. -/
theorem parseIP_ipText (hip : ip.length = 16) : parseIP (ipText ip) = some ip := by
  unfold ipText
  by_cases hhead : ip.take 12 = v4InV6Head
  · have hlength : (ip.drop 12).length = 4 := by rw [List.length_drop, hip]
    rw [to4_mapped hip hhead]
    simp only
    rw [parseIP_dottedText hlength, ← hhead, List.take_append_drop]
  · rw [to4_other hip hhead]
    exact parseIP_ipv6Text hip

/-- The bytes of the text of an address. -/
theorem ipText_bytes (hip : ip.length = 16) :
    ∀ b ∈ ipText ip, isHexOrColon b ∨ b = byte '.' := by
  have hdigit (b : UInt8) (hb : isDigit b) : isHexOrColon b := by
    simp [isHexOrColon, hexVal, hb]
  unfold ipText
  by_cases hhead : ip.take 12 = v4InV6Head
  · rw [to4_mapped hip hhead]
    intro b hb
    exact (dottedText_bytes _ b hb).imp_left (hdigit b)
  · rw [to4_other hip hhead]
    exact fun b hb => Or.inl (ipv6Text_bytes ip b hb)

theorem mem_splitByte {b c : UInt8} {s : GoString} (h : c ∈ s) :
    c = b ∨ ∃ part ∈ splitByte b s, c ∈ part := by
  have hmem : c ∈ (splitByte b s).flatMap (· ++ [b]) := by
    rw [flatMap_splitByte]
    exact List.mem_append_left _ h
  obtain ⟨part, hpart, hc⟩ := List.mem_flatMap.mp hmem
  rcases List.mem_append.mp hc with hc | hc
  · exact Or.inr ⟨part, hpart, hc⟩
  · exact Or.inl (List.mem_singleton.mp hc)

theorem parseOctet_digits {field : GoString} (h : parseOctet field = some b) :
    ∀ c ∈ field, isDigit c := by
  simp only [parseOctet] at h
  split at h
  · cases h
  · split at h
    · rename_i hall
      exact List.all_eq_true.mp hall
    · cases h

/-- No text that `ParseIP` takes has a zone. -/
theorem not_mem_of_parseIP {s : GoString} (h : parseIP s = some ip) : byte '%' ∉ s := by
  intro hmem
  simp only [parseIP] at h
  split at h
  · split at h
    · obtain ⟨fields, hfields, -⟩ := Option.map_eq_some_iff.mp h
      simp only [parseIPv4Fields] at hfields
      split at hfields
      · obtain hdot | ⟨part, hpart, hzone⟩ := @mem_splitByte (byte '.') _ _ hmem
        · exact absurd hdot (by decide)
        · obtain ⟨octet, hoctet⟩ := Support.Lists.exists_of_mapM_eq_some hfields hpart
          exact absurd (parseOctet_digits hoctet _ hzone) (by decide)
      · cases hfields
    · split at h
      · split at h
        · cases h
        · rename_i hnot
          rw [containsByte, List.contains_eq_mem, decide_eq_true_eq] at hnot
          exact hnot hmem
      · cases h
  · cases h

/-! ## Host and port -/

theorem findIdx?_of_not_mem {s : GoString} (h : b ∉ s) : s.findIdx? (· == b) = none :=
  List.idxOf?_eq_none_iff.mpr h

theorem lastIndexByte_append {s t : GoString} {b : UInt8} (ht : b ∉ t) :
    lastIndexByte (s ++ b :: t) b = some s.length := by
  have hfind : ((s ++ b :: t).reverse.findIdx? (· == b)) = some t.length := by
    rw [List.reverse_append, List.reverse_cons, List.append_assoc, List.singleton_append,
      List.findIdx?_append, findIdx?_of_not_mem (mt List.mem_reverse.mp ht)]
    simp [List.findIdx?_cons]
  rw [lastIndexByte, hfind, Option.map_some, List.length_append, List.length_cons]
  congr 1
  omega

theorem indexByte_append {s t : GoString} {b : UInt8} (hs : b ∉ s) :
    indexByte (s ++ b :: t) b = some s.length := by
  rw [indexByte, List.findIdx?_append, findIdx?_of_not_mem hs]
  simp [List.findIdx?_cons]

theorem containsByte_iff {s : GoString} : containsByte s b ↔ b ∈ s := by
  rw [containsByte, List.contains_eq_mem, decide_eq_true_eq]

theorem not_mem_digits (hport : ∀ b ∈ port, isDigit b) (hb : isDigit b = false) : b ∉ port := by
  intro hmem
  rw [hport b hmem] at hb
  cases hb

/-- The text of a bracketed host. -/
theorem joinHostPort_brackets (port : GoString) (h : byte ':' ∈ host) :
    joinHostPort host port = byte '[' :: (host ++ byte ']' :: byte ':' :: port) := by
  rw [joinHostPort, if_pos (containsByte_iff.mpr h)]
  have hlit : lit "[" = [byte '['] := rfl
  have hlit' : lit "]:" = [byte ']', byte ':'] := rfl
  simp [hlit, hlit']

theorem joinHostPort_plain {host : GoString} (port : GoString) (h : byte ':' ∉ host) :
    joinHostPort host port = host ++ byte ':' :: port := by
  rw [joinHostPort, if_neg (fun h' => h (containsByte_iff.mp h'))]
  have hlit : lit ":" = [byte ':'] := rfl
  simp [hlit]

theorem splitHostPort_of_not_mem (hopen : byte '[' ∉ host) (hclose : byte ']' ∉ host)
    (hcolon : byte ':' ∉ port) (hpopen : byte '[' ∉ port) (hpclose : byte ']' ∉ port) :
    splitHostPort (joinHostPort host port) = some (host, port) := by
  by_cases hhost : byte ':' ∈ host
  · rw [joinHostPort_brackets port hhost]
    have hlast : lastIndexByte (byte '[' :: (host ++ byte ']' :: byte ':' :: port)) (byte ':') =
        some (host.length + 2) := by
      have h := @lastIndexByte_append (byte '[' :: (host ++ [byte ']'])) port (byte ':') hcolon
      simpa using h
    have hindex : indexByte (byte '[' :: (host ++ byte ']' :: byte ':' :: port)) (byte ']') =
        some (host.length + 1) := by
      have h := @indexByte_append (byte '[' :: host) (byte ':' :: port) (byte ']') (by
        rw [List.mem_cons, not_or]
        exact ⟨by decide, hclose⟩)
      simpa using h
    have htake : ((byte '[' :: (host ++ byte ']' :: byte ':' :: port)).take
        (host.length + 1)).drop 1 = host := by simp
    have hdrop : (byte '[' :: (host ++ byte ']' :: byte ':' :: port)).drop (host.length + 2 + 1) =
        port := by simp [List.drop_append]
    have htail : (byte '[' :: (host ++ byte ']' :: byte ':' :: port)).drop (host.length + 1 + 1) =
        byte ':' :: port := by simp [List.drop_append]
    have hopen' : ¬ containsByte (host ++ byte ']' :: byte ':' :: port) (byte '[') := by
      rw [containsByte_iff, List.mem_append, List.mem_cons, List.mem_cons]
      exact not_or.mpr ⟨hopen, not_or.mpr ⟨by decide, not_or.mpr ⟨by decide, hpopen⟩⟩⟩
    have hclose' : ¬ containsByte (byte ':' :: port) (byte ']') := by
      rw [containsByte_iff, List.mem_cons]
      exact not_or.mpr ⟨by decide, hpclose⟩
    simp only [splitHostPort, hlast, hindex, List.head?_cons, if_true, List.drop_succ_cons,
      List.drop_zero] at htake hdrop htail ⊢
    rw [htake, hdrop, htail, if_neg hopen', if_neg hclose']
  · rw [joinHostPort_plain port hhost]
    have hlast := @lastIndexByte_append host port (byte ':') hcolon
    have hbracket (b : UInt8) (hb : b ≠ byte ':') (hhost' : b ∉ host) (hport' : b ∉ port) :
        ¬ containsByte (host ++ byte ':' :: port) b := by
      rw [containsByte_iff, List.mem_append, List.mem_cons]
      exact not_or.mpr ⟨hhost', not_or.mpr ⟨hb, hport'⟩⟩
    have hopen' := hbracket (byte '[') (by decide) hopen hpopen
    have hclose' := hbracket (byte ']') (by decide) hclose hpclose
    have hhead : (host ++ byte ':' :: port).head? ≠ some (byte '[') := by
      intro h
      exact hopen' (containsByte_iff.mpr (List.mem_of_head? h))
    have hhost' : ¬ containsByte host (byte ':') := fun h => hhost (containsByte_iff.mp h)
    simp only [splitHostPort, hlast, if_neg hhead, List.take_left, if_neg hhost', if_neg hopen',
      if_neg hclose']
    simp [List.drop_append]

theorem splitHostPort_joinHostPort (hopen : byte '[' ∉ host) (hclose : byte ']' ∉ host)
    (hport : ∀ b ∈ port, isDigit b) :
    splitHostPort (joinHostPort host port) = some (host, port) :=
  splitHostPort_of_not_mem hopen hclose (not_mem_digits hport (by decide))
    (not_mem_digits hport (by decide)) (not_mem_digits hport (by decide))

/-- A host with a zone is read with its zone, or not at all. -/
theorem percent_mem_of_splitHostPort {ip zone rest : GoString}
    (hopen : byte '[' ∉ ip) (hip : byte ']' ∉ ip) (hport : ∀ b ∈ port, isDigit b)
    (h : splitHostPort (joinHostPort (ip ++ byte '%' :: zone) port) = some (host, rest)) :
    byte '%' ∈ host := by
  have hcolon : byte ':' ∉ port := not_mem_digits hport (by decide)
  by_cases hhost : byte ':' ∈ ip ++ byte '%' :: zone
  · rw [joinHostPort_brackets port hhost] at h
    -- Everything up to the percent sign comes before the first closing bracket.
    have htext : byte '[' :: (ip ++ byte '%' :: zone ++ byte ']' :: byte ':' :: port) =
        (byte '[' :: (ip ++ [byte '%'])) ++ (zone ++ byte ']' :: byte ':' :: port) := by simp
    rw [htext] at h
    generalize zone ++ byte ']' :: byte ':' :: port = tail at h
    have hbefore : byte ']' ∉ byte '[' :: (ip ++ [byte '%']) := by
      rw [List.mem_cons, List.mem_append, List.mem_singleton]
      exact not_or.mpr ⟨by decide, not_or.mpr ⟨hip, by decide⟩⟩
    have hstep (close : Nat)
        (hclose : indexByte ((byte '[' :: (ip ++ [byte '%'])) ++ tail) (byte ']') = some close) :
        byte '%' ∈ (((byte '[' :: (ip ++ [byte '%'])) ++ tail).take close).drop 1 := by
      rw [indexByte, List.findIdx?_append, findIdx?_of_not_mem hbefore,
        Option.none_or] at hclose
      obtain ⟨i, -, rfl⟩ := Option.map_eq_some_iff.mp hclose
      rw [Nat.add_comm i, List.take_length_add_append]
      simp
    simp only [splitHostPort] at h
    split at h
    · cases h
    · rw [if_pos (by rfl)] at h
      split at h
      · cases h
      · rename_i close hclose
        split_ifs at h
        cases h
        exact hstep close hclose
  · rw [joinHostPort_plain port hhost] at h
    simp only [splitHostPort, lastIndexByte_append hcolon, List.take_left] at h
    have hhead : (ip ++ byte '%' :: zone ++ byte ':' :: port).head? ≠ some (byte '[') := by
      cases ip with
      | nil =>
        intro h
        exact absurd (Option.some.inj h) (by decide)
      | cons c ip =>
        intro h
        exact hopen (by rw [← Option.some.inj h]; exact List.mem_cons_self)
    rw [if_neg hhead] at h
    split_ifs at h
    cases h
    simp

end GloryHole.Go
