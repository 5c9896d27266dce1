import GloryHole.Boot.AllowedClients
import GloryHole.Boot.Proofs.Startup
import GloryHole.Dns.Proofs.Admission
import GloryHole.Support.Runs

/-!
# Who the plain listeners admit

Whatever the list comes from, the access list is that of the list as it was given.  It keeps
everyone else out if one of the entries is usable, and it decides by the address of the client
if that has no zone.
-/

namespace GloryHole.Boot

open Go Dns Support.Runs
open Config (Config Env Yaml)

variable {δ : Type} {yaml : Yaml δ} {hash : GoString → Option GoString} {env : Env}

/-- The list is not open for want of usable entries, and a list of usable entries admits
exactly the clients whose addresses lie in one of them. -/
def AccessSite.Listed (s : AccessSite δ) (addr : SocketAddr) (r : Msg) : Prop :=
  s.configured ≠ [] →
    s.acl.empty = false ∧
      ((∀ e ∈ s.configured, Usable e) → ∀ listener, listener = .udp ∨ listener = .tcp →
        (serveDNS s.acl listener (some addr) r = none ↔ ∃ e ∈ s.configured, LiesIn addr.ip e))

/-- The list has a usable entry, and if all are usable the client has no zone or lies in none. -/
def Decidedly (clients : List GoString) (addr : SocketAddr) : Prop :=
  clients = [] ∨ (∃ e ∈ clients, Usable e) ∧
    ((∀ e ∈ clients, Usable e) → addr.zone = [] ∨ ∀ e ∈ clients, ¬ LiesIn addr.ip e)

/-! ## The list in force -/

theorem not_usable_nil : ¬ Usable [] := by
  intro h
  exact Bool.noConfusion h

theorem validateClients_ok {clients validated : List GoString}
    (h : validateClients clients = .ok validated) :
    validated = (clients.map trimSpace).filter (· ≠ []) := by
  induction clients generalizing validated with
  | nil =>
    cases h
    rfl
  | cons entry clients ih =>
    simp only [validateClients] at h
    rw [List.map_cons]
    split at h
    · rename_i hblank
      rw [ih h, List.filter_cons_of_neg (by simp [hblank])]
    · rename_i hentry
      rw [List.filter_cons_of_pos (by simpa using hentry)]
      split at h
      · cases hrest : validateClients clients with
        | error e =>
          rw [hrest] at h
          cases h
        | ok rest =>
          rw [hrest] at h
          cases h
          rw [← ih hrest]
      · cases h

def AccessSite.InForce (s : AccessSite δ) : Prop := s.acl = ClientACL.new s.configured

theorem AccessSite.start_inForce {printable : Nat → Bool} {sur : Surroundings} {file : δ}
    {s : AccessSite δ} (h : AccessSite.start yaml printable hash env sur file = .ok s) :
    s.InForce := by
  simp only [AccessSite.start, bind_eq_ok, pure_eq_ok] at h
  obtain ⟨p, -, rfl⟩ := h
  rfl

theorem AccessSite.step_inForce (s : AccessSite δ) (req : ClientsRequest) (h : s.InForce) :
    (s.step req).InForce := by
  unfold step updateAllowedClients
  cases req.clients with
  | none => exact h
  | some clients =>
    simp only
    cases hvalid : validateClients clients with
    | error e => exact h
    | ok validated =>
      simp only
      split
      · exact h
      · have hskip (e : GoString) (he : decide (e ≠ []) = false) : ¬ Usable e := by
          have hnil : e = [] := by simpa using he
          rw [hnil]
          exact not_usable_nil
        rw [InForce, validateClients_ok hvalid]
        exact ClientACL.new_filter hskip

/-! ## Clients -/

theorem serveDNS_eq_none_iff {clients : List GoString} {listener : Listener}
    (ht : listener = .udp ∨ listener = .tcp) (remote : Option SocketAddr) (r : Msg) :
    serveDNS (ClientACL.new clients) listener remote r = none ↔
      (ClientACL.new clients).isAllowed (getClientIP remote) := by
  have hdot : listener ≠ .dot := by
    rintro rfl
    rcases ht with ht | ht <;> cases ht
  rw [serveDNS, if_neg hdot]
  split
  · rename_i hallowed
    exact iff_of_true rfl hallowed
  · rename_i hrefused
    exact iff_of_false (Option.some_ne_none _) hrefused

theorem AccessSite.listed_iff {s : AccessSite δ} (h : s.InForce) (addr : SocketAddr) (r : Msg) :
    s.Listed addr r ↔ Decidedly s.configured addr := by
  unfold Listed Decidedly
  rw [h]
  generalize s.configured = clients
  by_cases hnil : clients = []
  · exact iff_of_true (fun h => absurd hnil h) (Or.inl hnil)
  · have hopen : (ClientACL.new clients).empty = false ↔ ∃ e ∈ clients, Usable e := by
      rw [← Bool.not_eq_true, ClientACL.new_empty_iff]
      push Not
      rfl
    rw [or_iff_right hnil, hopen]
    constructor
    · intro hlisted
      obtain ⟨husable, hdecides⟩ := hlisted hnil
      refine ⟨husable, fun hall => ?_⟩
      by_contra hzone
      push Not at hzone
      obtain ⟨hzone, hin⟩ := hzone
      have hserve := (hdecides hall .udp (Or.inl rfl)).mpr hin
      rw [serveDNS_eq_none_iff (Or.inl rfl), ClientACL.isAllowed_of_parseIP_eq_none
        (parseIP_getClientIP_zone hzone)] at hserve
      obtain ⟨e, he, husable⟩ := husable
      exact hserve e he husable
    · rintro ⟨husable, hzone⟩ -
      refine ⟨husable, fun hall listener ht => ?_⟩
      have hsome : ¬ ∀ e ∈ clients, ¬ Usable e := by
        obtain ⟨e, he, husable⟩ := husable
        exact fun hnone => hnone e he husable
      rw [serveDNS_eq_none_iff ht]
      by_cases hnozone : addr.zone = []
      · rw [ClientACL.isAllowed_iff (parseIP_getClientIP hnozone), or_iff_right hsome]
      · rw [ClientACL.isAllowed_of_parseIP_eq_none (parseIP_getClientIP_zone hnozone)]
        refine iff_of_false hsome ?_
        rintro ⟨e, he, hin⟩
        exact (hzone hall).resolve_left hnozone e he hin

/-- From start-up on, in every state: the list is what it claims to be for a client exactly if
it decides about it. -/
theorem access_listed_iff (yaml : Yaml δ) (printable : Nat → Bool)
    (hash : GoString → Option GoString) (env : Env) (sur : Surroundings) (file : δ)
    (s₀ : AccessSite δ) (h : AccessSite.start yaml printable hash env sur file = .ok s₀)
    (reqs : List ClientsRequest) :
    ∀ s ∈ states AccessSite.step s₀ reqs, ∀ addr r,
      s.Listed addr r ↔ Decidedly s.configured addr := by
  have hinv := @invariant_states _ _ AccessSite.step (fun _ _ => True) AccessSite.InForce
    (fun s req _ => s.step_inForce req) s₀ reqs (allSteps_of_forall (fun _ _ => trivial) _ _)
    (AccessSite.start_inForce h)
  exact fun s hs addr r => AccessSite.listed_iff (hinv s hs) addr r

/-! ## An open list and a link-local client -/

def clientFile (clients : List GoString) : Config :=
  { Config.settledConfig with
    server := { Config.settledConfig.server with allowedClients := clients } }

def startWith (clients : List GoString) : Except GoString (AccessSite Config) :=
  AccessSite.start Config.plainYaml (fun _ => true) (fun _ => none) {} bare (clientFile clients)

theorem access_listed_iff_office :
    ∃ s₀, startWith [lit "10.0.0.0/8"] = .ok s₀ ∧
      ∀ s ∈ states AccessSite.step s₀ [⟨some [lit " fd00::/8 ", []], true⟩], ∀ addr r,
        s.Listed addr r ↔ Decidedly s.configured addr :=
  ⟨_, rfl, access_listed_iff Config.plainYaml (fun _ => true) (fun _ => none) {} bare
    (clientFile [lit "10.0.0.0/8"]) _ rfl _⟩

/-- A host name is all there is in the list, and a client from anywhere is admitted.  A
link-local client is refused although the network it is in is listed. -/
theorem access_list_fails :
    (∃ s, startWith [lit "localhost"] = .ok s ∧ s.acl.empty = true ∧
      serveDNS s.acl .udp (some ⟨v4InV6Head ++ [203, 0, 113, 7], [], 4000, rfl⟩) {} = none) ∧
    ∃ s, startWith [lit "fe80::/10"] = .ok s ∧
      let addr : SocketAddr := ⟨[0xfe, 0x80, 0, 0, 0, 0, 0, 0, 0, 0, 0, 0, 0, 0, 0, 1],
        lit "eth0", 4000, rfl⟩
      LiesIn addr.ip (lit "fe80::/10") ∧ serveDNS s.acl .udp (some addr) {} ≠ none := by
  refine ⟨⟨_, rfl, by decide +kernel, by decide +kernel⟩, ⟨_, rfl, ?_, by decide +kernel⟩⟩
  have hrange : entryRange (lit "fe80::/10") =
      some ⟨Support.Bits.bits [0xfe, 0x80, 0, 0, 0, 0, 0, 0, 0, 0, 0, 0, 0, 0, 0, 0], 10⟩ := by
    decide +kernel
  exact ⟨_, hrange, by decide +kernel⟩

end GloryHole.Boot
