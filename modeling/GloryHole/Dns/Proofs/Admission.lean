import GloryHole.Dns.AccessList

/-!
# Who a list admits

A list that is not open admits the clients whose addresses lie in one of its entries, and no
client with a zone.  It is open exactly if none of its entries is usable.
-/

namespace GloryHole.Dns

open Go Support.Bits

/-! ## Entries -/

theorem addressBits_inj {ip ip' : IP} (h : ip.length = 16) (h' : ip'.length = 16) :
    addressBits ip = addressBits ip' ↔ ip = ip' := by
  have hshort {a b : IP} (ha : a.length = 16) (hb : b.length = 16) : a.drop 12 ≠ b := by
    intro heq
    have hlength := congrArg List.length heq
    rw [List.length_drop, ha, hb] at hlength
    omega
  unfold addressBits
  rw [bits_inj]
  by_cases hhead : ip.take 12 = v4InV6Head
  · rw [to4_mapped h hhead, Option.getD_some]
    by_cases hhead' : ip'.take 12 = v4InV6Head
    · rw [to4_mapped h' hhead', Option.getD_some]
      constructor
      · intro hdrop
        rw [← List.take_append_drop 12 ip, ← List.take_append_drop 12 ip', hhead, hhead', hdrop]
      · intro heq
        rw [heq]
    · rw [to4_other h' hhead', Option.getD_none]
      exact iff_of_false (hshort h h') fun heq => hhead' (heq ▸ hhead)
  · rw [to4_other h hhead, Option.getD_none]
    by_cases hhead' : ip'.take 12 = v4InV6Head
    · rw [to4_mapped h' hhead', Option.getD_some]
      exact iff_of_false (hshort h' h).symm fun heq => hhead (heq ▸ hhead')
    · rw [to4_other h' hhead', Option.getD_none]

theorem single_contains_iff {ip single : IP} (h : ip.length = 16) (hsingle : single.length = 16) :
    Range.Contains ⟨addressBits single, (addressBits single).length⟩ ip ↔ single = ip := by
  rw [eq_comm, ← addressBits_inj h hsingle]
  simp only [Range.Contains, List.take_length]
  constructor
  · rintro ⟨hlength, htake⟩
    rwa [← hlength, List.take_length] at htake
  · intro heq
    rw [heq]
    exact ⟨rfl, List.take_length⟩

namespace ClientACL

variable {entries : List GoString} {ip : IP}

def Admits (acl : ClientACL) (ip : IP) : Prop :=
  (∃ net ∈ acl.nets, net.contains ip) ∨ ip ∈ acl.singles

theorem add_admits_iff (acl : ClientACL) (entry : GoString) (hip : ip.length = 16) :
    (acl.add entry).Admits ip ↔ acl.Admits ip ∨ LiesIn ip entry := by
  cases hsplit : splitCIDR entry with
  | some network =>
    obtain ⟨addr, start, n⟩ := network
    obtain ⟨net, hparse, hcontains⟩ := parseCIDR_contains_iff hsplit
    have hlies : LiesIn ip entry ↔ net.contains ip := by
      rw [LiesIn, entryRange, hsplit, hcontains]
      simp only [Option.some.injEq, exists_eq_left']
    have hadd : acl.add entry = { acl with nets := acl.nets ++ [net] } := by
      rw [add, hparse]
    rw [hadd, hlies]
    simp only [Admits, List.mem_append, List.mem_singleton]
    constructor
    · rintro (⟨net', hnet | rfl, hip'⟩ | hsingle)
      · exact Or.inl (Or.inl ⟨net', hnet, hip'⟩)
      · exact Or.inr hip'
      · exact Or.inl (Or.inr hsingle)
    · rintro ((⟨net', hnet, hip'⟩ | hsingle) | hip')
      · exact Or.inl ⟨net', Or.inl hnet, hip'⟩
      · exact Or.inr hsingle
      · exact Or.inl ⟨net, Or.inr rfl, hip'⟩
  | none =>
    have hparse : parseCIDR entry = none := by rw [parseCIDR, hsplit, Option.map_none]
    cases hsingle : parseIP entry with
    | none =>
      have hlies : ¬ LiesIn ip entry := by
        rintro ⟨r, hr, -⟩
        rw [entryRange, hsplit, hsingle] at hr
        cases hr
      rw [add, hparse, hsingle]
      exact (or_iff_left hlies).symm
    | some single =>
      have hlies : LiesIn ip entry ↔ ip = single := by
        rw [LiesIn, entryRange, hsplit, hsingle, eq_comm,
          ← single_contains_iff hip (parseIP_length hsingle)]
        simp only [Option.map_some, Option.some.injEq, exists_eq_left']
      rw [add, hparse, hsingle, hlies]
      simp only [Admits, List.mem_append, List.mem_singleton, or_assoc]

theorem foldl_add_admits_iff (acl : ClientACL) (hip : ip.length = 16) :
    (entries.foldl add acl).Admits ip ↔ acl.Admits ip ∨ ∃ e ∈ entries, LiesIn ip e := by
  induction entries generalizing acl with
  | nil => simp
  | cons e entries ih => simp [ih, add_admits_iff acl e hip, or_assoc]

def Bare (acl : ClientACL) : Prop := acl.nets = [] ∧ acl.singles = []

theorem add_bare_iff (acl : ClientACL) (entry : GoString) :
    (acl.add entry).Bare ↔ acl.Bare ∧ ¬ Usable entry := by
  unfold Usable entryRange
  cases hsplit : splitCIDR entry with
  | some network =>
    obtain ⟨net, hparse, -⟩ := parseCIDR_contains_iff hsplit
    rw [add, hparse]
    simp [Bare]
  | none =>
    have hparse : parseCIDR entry = none := by rw [parseCIDR, hsplit, Option.map_none]
    rw [add, hparse]
    cases hsingle : parseIP entry with
    | none => simp
    | some single => simp [Bare]

theorem foldl_add_bare_iff (acl : ClientACL) :
    (entries.foldl add acl).Bare ↔ acl.Bare ∧ ∀ e ∈ entries, ¬ Usable e := by
  induction entries generalizing acl with
  | nil => simp
  | cons e entries ih => simp [ih, add_bare_iff acl e, and_assoc]

theorem new_eq (entries : List GoString) :
    new entries =
      { entries.foldl add {} with
        empty :=
          (entries.foldl add {}).nets.isEmpty && (entries.foldl add {}).singles.isEmpty } := by
  unfold new
  split
  · rename_i hnil
    rw [hnil]
    rfl
  · rfl

/-- A list is open if it has nothing to compare a client with. -/
theorem new_empty_iff : (new entries).empty ↔ ∀ e ∈ entries, ¬ Usable e := by
  have hbare := @foldl_add_bare_iff entries {}
  rw [new_eq]
  simpa [Bare] using hbare

theorem add_of_not_usable (acl : ClientACL) {entry : GoString} (h : ¬ Usable entry) :
    acl.add entry = acl := by
  unfold Usable entryRange at h
  cases hsplit : splitCIDR entry with
  | some network =>
    rw [hsplit] at h
    exact absurd rfl h
  | none =>
    cases hsingle : parseIP entry with
    | some single =>
      rw [hsplit, hsingle] at h
      exact absurd rfl h
    | none =>
      have hparse : parseCIDR entry = none := by rw [parseCIDR, hsplit, Option.map_none]
      rw [add, hparse, hsingle]

/-- Entries that are not usable can be left out. -/
theorem new_filter {keep : GoString → Bool} (h : ∀ e, keep e = false → ¬ Usable e) :
    new (entries.filter keep) = new entries := by
  have hfold (acl : ClientACL) : (entries.filter keep).foldl add acl = entries.foldl add acl := by
    induction entries generalizing acl with
    | nil => rfl
    | cons e entries ih =>
      cases hkeep : keep e with
      | true => rw [List.filter_cons_of_pos hkeep, List.foldl_cons, List.foldl_cons, ih]
      | false =>
        rw [List.filter_cons_of_neg (by simp [hkeep]), List.foldl_cons,
          add_of_not_usable acl (h e hkeep), ih]
  rw [new_eq, new_eq, hfold]

theorem isAllowed_iff {clientIP : GoString} (hip : parseIP clientIP = some ip) :
    (new entries).isAllowed clientIP ↔
      (∀ e ∈ entries, ¬ Usable e) ∨ ∃ e ∈ entries, LiesIn ip e := by
  have hadmits := @foldl_add_admits_iff entries ip {} (parseIP_length hip)
  rw [← new_empty_iff]
  simp only [isAllowed, hip]
  split
  · rename_i hempty
    exact iff_of_true rfl (Or.inl hempty)
  · rename_i hempty
    have hbare : ¬ Admits {} ip := by simp [Admits]
    rw [or_iff_right hbare] at hadmits
    rw [or_iff_right hempty, new_eq, ← hadmits, Bool.or_eq_true, List.any_eq_true, List.any_beq',
      List.contains_iff_mem]
    exact Iff.rfl

theorem isAllowed_of_parseIP_eq_none {clientIP : GoString} (hip : parseIP clientIP = none) :
    (new entries).isAllowed clientIP ↔ ∀ e ∈ entries, ¬ Usable e := by
  rw [← new_empty_iff]
  simp [isAllowed, hip]

end ClientACL

/-! ## Clients -/

theorem ipText_not_mem {addr : SocketAddr} {b : UInt8} (hb : isHexOrColon b = false)
    (hdot : b ≠ byte '.') : b ∉ ipText addr.ip := by
  intro hmem
  rcases ipText_bytes addr.length_ip b hmem with h | h
  · rw [hb] at h
    cases h
  · exact hdot h

/-- Without a zone the address of the client is what is looked up. -/
theorem parseIP_getClientIP {addr : SocketAddr} (h : addr.zone = []) :
    parseIP (getClientIP (some addr)) = some addr.ip := by
  have hsplit : splitHostPort addr.text = some (ipText addr.ip, itoa addr.port.toNat) := by
    rw [SocketAddr.text, if_neg (not_not.mpr h)]
    exact splitHostPort_joinHostPort (ipText_not_mem (by decide) (by decide))
      (ipText_not_mem (by decide) (by decide)) itoa_bytes
  simp only [getClientIP, hsplit]
  exact parseIP_ipText addr.length_ip

/-- With a zone nothing is. -/
theorem parseIP_getClientIP_zone {addr : SocketAddr} (h : addr.zone ≠ []) :
    parseIP (getClientIP (some addr)) = none := by
  have htext : addr.text =
      joinHostPort (ipText addr.ip ++ byte '%' :: addr.zone) (itoa addr.port.toNat) := by
    have hlit : lit "%" = [byte '%'] := rfl
    rw [SocketAddr.text, if_pos h, hlit, List.append_assoc, List.singleton_append]
  have hpercent : byte '%' ∈ getClientIP (some addr) := by
    simp only [getClientIP]
    split
    · rename_i host port hsplit
      rw [htext] at hsplit
      exact percent_mem_of_splitHostPort (ipText_not_mem (by decide) (by decide))
        (ipText_not_mem (by decide) (by decide)) itoa_bytes hsplit
    · rw [htext]
      unfold joinHostPort
      split <;> simp
  by_contra hip
  obtain ⟨ip, hip⟩ := Option.ne_none_iff_exists'.mp hip
  exact not_mem_of_parseIP hip hpercent

end GloryHole.Dns
