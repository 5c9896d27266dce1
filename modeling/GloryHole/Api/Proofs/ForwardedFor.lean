import GloryHole.Api.ClientAddress

/-!
# Forged client addresses

`getClientIP` takes the first address of the header, and that is the client's own: what a
trusted proxy appends comes after it.
-/

namespace GloryHole.Api

open Go

/-- No value of the client's own header changes the address it is known by. -/
def Unforgeable (trustedProxies : List IPNet) (r : Request) (peers : List GoString) : Prop :=
  ∀ supplied supplied',
    getClientIP trustedProxies (arriveThrough r peers supplied) =
      getClientIP trustedProxies (arriveThrough r peers supplied')

theorem foldl_appendForwarded (peers : List GoString) (v : GoString) :
    ∃ rest, peers.foldl appendForwarded (some v) = some (v ++ rest) ∧
      (rest = [] ∨ ∃ tail, rest = byte ',' :: tail) := by
  induction peers generalizing v with
  | nil => exact ⟨[], by simp, Or.inl rfl⟩
  | cons peer peers ih =>
    obtain ⟨rest, hfold, -⟩ := ih (v ++ lit ", " ++ peer)
    have hlit : lit ", " = [byte ',', byte ' '] := rfl
    refine ⟨lit ", " ++ peer ++ rest, ?_, Or.inr ⟨byte ' ' :: (peer ++ rest), by simp [hlit]⟩⟩
    rw [List.foldl_cons, appendForwarded, hfold]
    simp

theorem splitByte_head {b : UInt8} {v rest : GoString} (hv : b ∉ v)
    (hrest : rest = [] ∨ ∃ tail, rest = b :: tail) : (splitByte b (v ++ rest)).headD [] = v := by
  rcases hrest with rfl | ⟨tail, rfl⟩
  · rw [List.append_nil, splitByte_of_not_mem hv]
    rfl
  · rw [splitByte_append hv]
    rfl

/-- Behind a trusted proxy the client is what it says it is. -/
theorem getClientIP_supplied {trustedProxies : List IPNet} {r : Request}
    (htrusted : isTrustedProxy trustedProxies (remoteHost r) = true) (peers : List GoString)
    {v : GoString} (hcomma : byte ',' ∉ v) (htrim : trimSpace v = v) (hne : v ≠ []) :
    getClientIP trustedProxies (arriveThrough r peers (some v)) = v := by
  obtain ⟨rest, hfold, hrest⟩ := foldl_appendForwarded peers v
  have hget : (arriveThrough r peers (some v)).headerGet forwardedForHeader = v ++ rest := by
    rw [arriveThrough, hfold]
    simp [Request.headerGet, equalFold]
  have hhost : remoteHost (arriveThrough r peers (some v)) = remoteHost r := rfl
  have hnonempty : v ++ rest ≠ [] := List.append_ne_nil_of_left_ne_nil hne rest
  rw [getClientIP, hhost, if_pos htrusted, hget, splitByte_head hcomma hrest, htrim]
  exact if_pos ⟨hnonempty, hne⟩

/-- The address of a client cannot be forged exactly if the direct peer is not trusted. -/
theorem unforgeable_iff (trustedProxies : List IPNet) (r : Request) (peers : List GoString) :
    Unforgeable trustedProxies r peers ↔
      isTrustedProxy trustedProxies (remoteHost r) = false := by
  constructor
  · intro h
    by_contra htrusted
    rw [Bool.not_eq_false] at htrusted
    have hone := @getClientIP_supplied trustedProxies r htrusted peers (lit "1.1.1.1")
      (by decide) (by decide +kernel) (by decide)
    have htwo := @getClientIP_supplied trustedProxies r htrusted peers (lit "2.2.2.2")
      (by decide) (by decide +kernel) (by decide)
    have hsame := h (some (lit "1.1.1.1")) (some (lit "2.2.2.2"))
    rw [hone, htwo] at hsame
    exact absurd hsame (by decide)
  · intro huntrusted supplied supplied'
    have hpeer (supplied : Option GoString) :
        getClientIP trustedProxies (arriveThrough r peers supplied) = remoteHost r := by
      have hhost : remoteHost (arriveThrough r peers supplied) = remoteHost r := rfl
      rw [getClientIP, hhost, huntrusted]
      exact if_neg Bool.false_ne_true
    rw [hpeer, hpeer]

def proxiedLogin : Request :=
  { method := .post, path := lit "/login", remoteAddr := lit "10.0.0.1:4711" }

/-- A client at 203.0.113.9 sends two headers of its own and gets two buckets. -/
theorem login_buckets_forged :
    let buckets (supplied : GoString) :=
      rateLimitBuckets (trustedNets [lit "10.0.0.0/8"])
        (arriveThrough proxiedLogin [lit "203.0.113.9"] (some supplied))
    buckets (lit "1.1.1.1") = [(.login, lit "1.1.1.1")] ∧
      buckets (lit "2.2.2.2") = [(.login, lit "2.2.2.2")] := by
  decide +kernel

end GloryHole.Api
