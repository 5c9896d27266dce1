import GloryHole.Dns.Proofs.OwnReplies

/-!
# OPT records and sizes of replies

`HandleEDNS0` gives a reply of the handler's own the OPT record the query asks for.  A message
from the cache gets one only if it has none, and keeps the one it was stored with; an upstream's
answer is passed on as it is.  Whether the reply matches the query is then up to those messages.
-/

namespace GloryHole.Dns

open Go

def Msg.opts (msg : Msg) : List RR := msg.extra.filter (·.rrtype == typeOPT)

/-- One OPT record with the DO bit of the query's, or none if the query has none. -/
def Symmetric (r msg : Msg) : Prop :=
  match r.isEdns0 with
  | none => msg.opts = []
  | some opt => ∃ o, msg.opts = [o] ∧ o.doBit = opt.doBit

theorem isEdns0_eq_none_iff {msg : Msg} : msg.isEdns0 = none ↔ msg.opts = [] := by
  simp [Msg.isEdns0, Msg.opts, List.filter_eq_nil_iff]

theorem writeMsg_opts (len : Msg → Nat) (t : Transport) (msg : Msg) :
    (writeMsg len t msg).opts = msg.opts := by
  unfold writeMsg truncate
  split <;> rfl

/-! ## `HandleEDNS0` -/

def negotiatedOpt (opt : RR) : RR where
  name := lit "."
  rrtype := typeOPT
  rrclass := negotiateBufferSize opt.udpSize
  ttl := if opt.doBit then 0x8000 else 0
  rdata := []

theorem handleEDNS0_of_some {r msg : Msg} {opt : RR} (hr : r.isEdns0 = some opt)
    (hmsg : msg.opts = []) :
    handleEDNS0 r msg = { msg with extra := msg.extra ++ [negotiatedOpt opt] } := by
  simp only [handleEDNS0, hr, isEdns0_eq_none_iff.mpr hmsg]
  rfl

theorem negotiatedOpt_doBit (opt : RR) : (negotiatedOpt opt).doBit = opt.doBit := by
  have hbit (b : Bool) : (if b then 0x8000 else 0 : UInt32).toNat.testBit 15 = b := by
    cases b <;> decide
  exact hbit opt.doBit

theorem handleEDNS0_symmetric {r msg : Msg} {opt : RR} (hr : r.isEdns0 = some opt)
    (hmsg : msg.opts = []) : Symmetric r (handleEDNS0 r msg) := by
  rw [handleEDNS0_of_some hr hmsg, Symmetric, hr]
  refine ⟨negotiatedOpt opt, ?_, negotiatedOpt_doBit opt⟩
  unfold Msg.opts at hmsg ⊢
  rw [List.filter_append, hmsg, List.nil_append]
  rfl

/-- A message comes out symmetric exactly when it has no OPT record or is symmetric already. -/
theorem handleEDNS0_symmetric_iff {r msg : Msg} :
    Symmetric r (handleEDNS0 r msg) ↔ msg.opts = [] ∨ Symmetric r msg := by
  cases hr : r.isEdns0 with
  | none =>
    have hsame : handleEDNS0 r msg = msg := by simp only [handleEDNS0, hr]
    simp only [hsame, Symmetric, hr, or_self]
  | some opt =>
    by_cases hmsg : msg.opts = []
    · exact iff_of_true (handleEDNS0_symmetric hr hmsg) (Or.inl hmsg)
    · have hsame : handleEDNS0 r msg = msg := by
        cases hopt : msg.isEdns0 with
        | none => exact absurd (isEdns0_eq_none_iff.mp hopt) hmsg
        | some o => simp only [handleEDNS0, hr, hopt]
      rw [hsame, or_iff_right hmsg]

theorem OwnReply.symmetric {r msg : Msg} (h : OwnReply r msg) : Symmetric r msg := by
  have hopts : msg.opts = (baseReply r).opts := by simp only [Msg.opts, h.extra]
  have hbase : Symmetric r (baseReply r) := handleEDNS0_symmetric_iff.mpr (Or.inl rfl)
  unfold Symmetric at hbase ⊢
  rw [hopts]
  exact hbase

/-! ## Every path -/

def Msg.doBits (msg : Msg) : List Bool := msg.opts.map RR.doBit

/-- The message has the DO bits that the query asks for, or it has come from the cache without an
OPT record. -/
def Reply.Matches (r : Msg) : Reply → Prop
  | .own _ => True
  | .cached stored => stored.opts = [] ∨ stored.doBits = (r.isEdns0.map RR.doBit).toList
  | .forwarded resp => resp.doBits = (r.isEdns0.map RR.doBit).toList

theorem symmetric_iff_doBits {r msg : Msg} :
    Symmetric r msg ↔ msg.doBits = (r.isEdns0.map RR.doBit).toList := by
  unfold Symmetric Msg.doBits
  cases r.isEdns0 with
  | none => simp
  | some opt => simp [List.map_eq_singleton_iff]

theorem symmetric_congr {r msg msg' : Msg} (h : msg.opts = msg'.opts) :
    Symmetric r msg ↔ Symmetric r msg' := by
  unfold Symmetric
  rw [h]

/-- The reply has the query's EDNS state exactly when a message that the query gets from the cache
or from an upstream fits. -/
theorem serveDNS_symmetric_iff (h : Handler) (t : Transport) (cache : ResponseCache)
    (query : Query) (env : Env) :
    Symmetric query.request (h.serveDNS t cache query env).2 ↔
      ∀ reply, PassedOn h cache query env reply → reply.Matches query.request := by
  have hkept := respond_kept h cache query env
  rw [forall_passedOn_iff fun _ _ => trivial]
  simp only [Handler.serveDNS]
  rw [symmetric_congr (writeMsg_opts _ _ _)]
  cases hreply : (h.respond cache query env).2 with
  | own msg =>
    rw [hreply] at hkept
    exact iff_of_true hkept.symmetric trivial
  | cached stored =>
    refine handleEDNS0_symmetric_iff.trans (or_congr Iff.rfl ?_)
    exact (symmetric_congr rfl).trans symmetric_iff_doBits
  | forwarded resp => exact symmetric_iff_doBits

/-! ## A message stored for another client -/

def optRecord (size : UInt16) : RR := ⟨lit ".", typeOPT, size, 0, []⟩

def longAnswer : Msg :=
  { response := true
    question := [⟨lit "example.com.", typeA, 1⟩]
    answer := List.replicate 20 ⟨lit "example.com.", typeA, 1, 300, [10, 0, 0, 1]⟩
    extra := [optRecord 4096] }

def warmCache : ResponseCache :=
  (forwardingHandler.serveDNS .udp
    (Cache.new { enabled := true, maxEntries := 100, maxTTL := 3600 * Cache.second })
    (queryFor (lit "example.com.") [optRecord 4096])
    ⟨0, [], fun _ => some longAnswer⟩).1

/-- The same question without an OPT record is answered from the cache, with the OPT record of the
stored answer. -/
theorem cached_opt_leaks :
    (queryFor (lit "example.com.") []).request.opts = [] ∧
      (forwardingHandler.serveDNS .udp warmCache (queryFor (lit "example.com.") [])
        ⟨Cache.second, [], fun _ => none⟩).2.opts = [optRecord 4096] := by
  decide +kernel

/-!
## The size of UDP replies

`writeMsg` keeps a reply to the size in the reply's own OPT record, which the handler negotiates for
its own replies only, and takes nothing but the answers out of one that is longer.
-/

/-- The size a client can take: 512 bytes, or more if its OPT record says so. -/
def clientLimit (r : Msg) : Nat :=
  match r.isEdns0 with
  | none => 512
  | some opt => max 512 opt.udpSize.toNat

/-- The message is within `writeMsg`'s limit and the client's; or it is over the former, and what
is left of it is within the latter. -/
def Fits (len : Msg → Nat) (r msg : Msg) : Prop :=
  (len msg ≤ maxSize msg ∧ len msg ≤ clientLimit r) ∨
    (maxSize msg < len msg ∧ len (truncate msg) ≤ clientLimit r)

theorem writeMsg_len_le_iff (len : Msg → Nat) (r msg : Msg) :
    len (writeMsg len .udp msg) ≤ clientLimit r ↔ Fits len r msg := by
  unfold Fits writeMsg
  by_cases hlong : len msg > maxSize msg
  · rw [if_pos ⟨rfl, hlong⟩]
    simp [hlong]
  · rw [if_neg (fun hboth => hlong hboth.2)]
    simp [not_lt.mp hlong, hlong]

/-! ### The handler's own replies -/

theorem negotiateBufferSize_le {size : UInt16} (hsize : size ≠ 0) :
    (negotiateBufferSize size).toNat ≤ max 512 size.toNat := by
  simp only [negotiateBufferSize, if_neg hsize]
  split
  · exact Nat.le_max_left _ _
  split
  · rename_i hbig
    have hlt : (4096 : UInt16).toNat < size.toNat := UInt16.lt_iff_toNat_lt.mp hbig
    exact Nat.le_trans (Nat.le_of_lt hlt) (Nat.le_max_right _ _)
  · exact Nat.le_max_right _ _

/-- The limit of an own reply is the client's, but for a client that offers a size of zero. -/
theorem OwnReply.maxSize_le {r msg : Msg} (hown : OwnReply r msg)
    (hsize : ∀ opt ∈ r.isEdns0, opt.udpSize ≠ 0) : maxSize msg ≤ clientLimit r := by
  have hopt : msg.isEdns0 = (baseReply r).isEdns0 := by simp only [Msg.isEdns0, hown.extra]
  simp only [maxSize, hopt, clientLimit]
  cases hr : r.isEdns0 with
  | none =>
    have hnone : (baseReply r).isEdns0 = none := by
      simp only [baseReply, handleEDNS0, hr]
      rfl
    rw [hnone]
  | some opt =>
    have hsome : (baseReply r).isEdns0 = some (negotiatedOpt opt) := by
      rw [baseReply, handleEDNS0_of_some hr (by rfl)]
      rfl
    rw [hsome]
    exact negotiateBufferSize_le (hsize opt hr)

/-- Such a reply fits as soon as a bare one does. -/
theorem OwnReply.fits {r msg : Msg} {len : Msg → Nat} (hown : OwnReply r msg)
    (hsize : ∀ opt ∈ r.isEdns0, opt.udpSize ≠ 0) (hbare : len (truncate msg) ≤ clientLimit r) :
    Fits len r msg := by
  by_cases hlong : maxSize msg < len msg
  · exact Or.inr ⟨hlong, hbare⟩
  · have hshort := not_lt.mp hlong
    exact Or.inl ⟨hshort, Nat.le_trans hshort (hown.maxSize_le hsize)⟩

/-- The handler's own replies, packed, are no longer than their clients can take, if a bare one
is not and the client does not offer a size of zero. -/
theorem own_reply_within_limit (h : Handler) (cache : ResponseCache) (query : Query) (env : Env)
    {msg : Msg} (hown : (h.respond cache query env).2 = .own msg)
    (hsize : ∀ opt ∈ query.request.isEdns0, opt.udpSize ≠ 0)
    (hbare : h.codec.len (truncate msg) ≤ clientLimit query.request) (packedLen : Msg → Nat)
    (hbound : ∀ msg, packedLen msg ≤ h.codec.len msg) :
    packedLen (h.serveDNS .udp cache query env).2 ≤ clientLimit query.request := by
  have hkept := respond_kept h cache query env
  rw [hown] at hkept
  have hwritten : (h.serveDNS .udp cache query env).2 = writeMsg h.codec.len .udp msg :=
    congrArg (fun reply : Reply => writeMsg h.codec.len .udp (reply.msg query.request)) hown
  rw [hwritten]
  exact (hbound _).trans ((writeMsg_len_le_iff ..).mpr (OwnReply.fits hkept hsize hbare))

theorem own_reply_within_limit_failed :
    wireLen (forwardingHandler.serveDNS .udp none (queryFor (lit "example.com.") [])
      ⟨0, [], fun _ => none⟩).2 ≤ 512 :=
  own_reply_within_limit forwardingHandler none _ ⟨0, [], fun _ => none⟩ rfl (by decide)
    (by decide +kernel) _ fun _ => Nat.le_refl _

/-! ### Every path -/

end GloryHole.Dns
