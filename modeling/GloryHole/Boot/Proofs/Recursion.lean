import GloryHole.Boot.Proofs.Startup
import GloryHole.Boot.Reload
import GloryHole.Forwarder.Proofs.Recovery
import GloryHole.Go.Address

/-!
# Recursion through Unbound

Start-up puts the address of Unbound in the place of the configured upstreams, in memory.  The
callback compares this list with that of the file: a reload of a file that names anything else
installs a forwarder to what the file names.
-/

namespace GloryHole.Boot

open Go Support.Runs
open Config (Config Env Yaml)
open Forwarder (Forwarder newForwarder normalizeUpstream forward Attempt Sent
  forward_confined)

/-! ## The upstreams of a forwarder -/

theorem normalizeUpstream_unboundAddr (cfg : Config) :
    normalizeUpstream (unboundAddr cfg) = unboundAddr cfg := by
  have hport : ∀ b, b ∈ itoa cfg.unbound.listenPort → b ≠ byte ':' ∧ b ≠ byte '[' ∧
      b ≠ byte ']' := by
    intro b hb
    rcases mem_itoa hb with hdigit | rfl
    · refine ⟨?_, ?_, ?_⟩ <;> (rintro rfl; exact absurd hdigit (by decide))
    · decide
  have hjoin : unboundAddr cfg =
      joinHostPort (lit "127.0.0.1") (itoa cfg.unbound.listenPort) :=
    (@joinHostPort_plain (lit "127.0.0.1") _ (by decide)).symm
  have hsplit : splitHostPort (unboundAddr cfg) =
      some (lit "127.0.0.1", itoa cfg.unbound.listenPort) := by
    rw [hjoin]
    apply splitHostPort_of_not_mem (by decide) (by decide)
    · exact fun h => (hport _ h).1 rfl
    · exact fun h => (hport _ h).2.1 rfl
    · exact fun h => (hport _ h).2.2 rfl
  rw [normalizeUpstream, hsplit]

def NamesOnly (addr : GoString) (cfg : Config) : Prop :=
  cfg.upstreamDNSServers ≠ [] ∧ ∀ u ∈ cfg.upstreamDNSServers, normalizeUpstream u = addr

theorem newForwarder_upstreams_iff (addr : GoString) (cfg : Config) (now : Int) :
    (∀ u, u ∈ (newForwarder cfg now).upstreams ↔ u = addr) ↔ NamesOnly addr cfg := by
  unfold newForwarder NamesOnly
  dsimp only
  by_cases hempty : cfg.upstreamDNSServers = []
  · rw [if_pos hempty]
    constructor
    · intro h
      have hfirst := (h (lit "1.1.1.1:53")).mp (by decide)
      have hsecond := (h (lit "8.8.8.8:53")).mp (by decide)
      exact absurd (hfirst.trans hsecond.symm) (by decide)
    · intro h
      exact absurd hempty h.1
  · rw [if_neg hempty]
    constructor
    · intro h
      exact ⟨hempty, fun u hu => (h _).mp (List.mem_map_of_mem hu)⟩
    · rintro ⟨-, hall⟩ u
      constructor
      · intro hu
        obtain ⟨v, hv, rfl⟩ := List.mem_map.mp hu
        exact hall v hv
      · rintro rfl
        obtain ⟨v, hv⟩ := List.exists_mem_of_ne_nil _ hempty
        exact List.mem_map.mpr ⟨v, hv, hall v hv⟩

/-! ## States of a run -/

namespace Running

/-- The forwarder of the handler sends default queries to the address and to nothing else. -/
def AsksOnly (addr : GoString) (r : Running) : Prop :=
  ∃ f, r.forwarder = some f ∧ ∀ u, u ∈ f.upstreams ↔ u = addr

def Step.KeepsUnbound : Step → Prop
  | .reload newCfg _ => newCfg.unbound.enabled = true
  | .query _ => True
  | .advance _ => True

def Step.NamesOnly (addr : GoString) : Step → Prop
  | .reload newCfg _ => Boot.NamesOnly addr newCfg
  | .query _ => True
  | .advance _ => True

structure Consistent (r : Running) : Prop where
  enabled : r.config.unbound.enabled = true
  forwarder : ∃ f now, r.forwarder = some f ∧
    f.upstreams = (newForwarder r.config now).upstreams

theorem newForwarder_upstreams {cfg cfg' : Config}
    (h : cfg.upstreamDNSServers = cfg'.upstreamDNSServers) (now now' : Int) :
    (newForwarder cfg now).upstreams = (newForwarder cfg' now').upstreams := by
  unfold newForwarder
  dsimp only
  rw [h]

variable {r : Running}

theorem Consistent.asksOnly_iff (h : r.Consistent) (addr : GoString) :
    r.AsksOnly addr ↔ Boot.NamesOnly addr r.config := by
  obtain ⟨f, now, hf, hupstreams⟩ := h.forwarder
  rw [← newForwarder_upstreams_iff addr r.config now, ← hupstreams]
  constructor
  · rintro ⟨g, hg, hall⟩
    rw [hf] at hg
    obtain rfl := Option.some.inj hg
    exact hall
  · intro hall
    exact ⟨f, hf, hall⟩

/-- While Unbound stays enabled, its part of the callback only takes the configuration over. -/
theorem changeUnbound_eq {newCfg : Config} (h : r.config.unbound.enabled = true)
    (hnew : newCfg.unbound.enabled = true) (starts : Bool) :
    r.changeUnbound newCfg starts = { r with config := newCfg } := by
  unfold changeUnbound
  simp [h, hnew]

theorem onChange_spec {newCfg : Config} (h : r.Consistent) (hnew : newCfg.unbound.enabled = true)
    (starts : Bool) :
    (r.onChange newCfg starts).config = newCfg ∧ (r.onChange newCfg starts).Consistent := by
  unfold onChange changeUpstreams
  split
  case isTrue hsame =>
    rw [changeUnbound_eq h.enabled hnew]
    obtain ⟨f, now, hf, hupstreams⟩ := h.forwarder
    exact ⟨rfl, hnew, f, now, hf, hupstreams.trans (newForwarder_upstreams hsame now now)⟩
  case isFalse =>
    rw [changeUnbound_eq (r := r.setForwarder newCfg) h.enabled hnew]
    exact ⟨rfl, hnew, _, r.now, rfl, rfl⟩

theorem query_upstreams {f : Forwarder} (hf : r.forwarder = some f) (env : Nat → Attempt) :
    ∃ g, (r.query env).forwarder = some g ∧ g.upstreams = f.upstreams ∧
      (r.query env).config = r.config := by
  unfold query
  rw [hf]
  exact ⟨_, rfl, (forward_confined env ⟨f, r.now⟩).1, rfl⟩

theorem step_consistent (h : r.Consistent) (s : Step) (hkeep : s.KeepsUnbound) :
    (r.step s).Consistent := by
  cases s with
  | reload newCfg starts => exact (onChange_spec h hkeep starts).2
  | query env =>
    obtain ⟨f, now, hf, hupstreams⟩ := h.forwarder
    obtain ⟨g, hg, hsame, hconfig⟩ := query_upstreams hf env
    constructor
    · change (r.query env).config.unbound.enabled = true
      rw [hconfig]
      exact h.enabled
    · refine ⟨g, now, hg, ?_⟩
      change g.upstreams = (newForwarder (r.query env).config now).upstreams
      rw [hconfig, hsame, hupstreams]
  | advance d => exact ⟨h.enabled, h.forwarder⟩

theorem step_asksOnly_iff {addr : GoString} (h : r.Consistent) (s : Step) (hkeep : s.KeepsUnbound)
    (hasks : r.AsksOnly addr) :
    (r.step s).AsksOnly addr ↔ s.NamesOnly addr := by
  rw [(step_consistent h s hkeep).asksOnly_iff]
  cases s with
  | reload newCfg starts =>
    change Boot.NamesOnly addr (r.onChange newCfg starts).config ↔ Boot.NamesOnly addr newCfg
    rw [(onChange_spec h hkeep starts).1]
  | query env =>
    obtain ⟨f, now, hf, -⟩ := h.forwarder
    obtain ⟨g, -, -, hconfig⟩ := query_upstreams hf env
    change Boot.NamesOnly addr (r.query env).config ↔ True
    rw [hconfig]
    exact iff_true_intro ((h.asksOnly_iff addr).mp hasks)
  | advance d => exact iff_true_intro ((h.asksOnly_iff addr).mp hasks)

/-- Such a forwarder sends every packet of every query to the address. -/
theorem AsksOnly.sent {addr : GoString} (h : r.AsksOnly addr) (env : Nat → Attempt) :
    ∀ s ∈ r.sent env, s.upstream = addr := by
  obtain ⟨f, hf, hall⟩ := h
  intro s hs
  rw [Running.sent, hf] at hs
  exact (hall _).mp ((forward_confined env ⟨f, r.now⟩).2 s hs)

end Running

/-! ## Runs -/

section Start

variable {δ : Type} {yaml : Yaml δ} {printable : Nat → Bool} {hash : GoString → Option GoString}
  {env : Env} {sur : Surroundings} {file : δ} {p : Process δ}

theorem start_upstreams (h : start yaml printable hash env sur file = .ok p)
    (hstarts : sur.unboundStarts = true) (henabled : p.config.unbound.enabled = true)
    (hmanaged : p.config.unbound.managed = true) :
    p.config.upstreamDNSServers = [unboundAddr p.config] := by
  simp only [start, bind_eq_ok, pure_eq_ok] at h
  obtain ⟨p₀, -, rfl⟩ := h
  unfold Process.prepare at henabled hmanaged ⊢
  dsimp only at henabled hmanaged ⊢
  generalize ((p₀.migrateWhitelist yaml).migrateConditionalForwarding yaml
    printable).seed.loadAllowedClients = q at henabled hmanaged ⊢
  have hconfig := congrArg Api.ConfigState.config (q.startUnbound_eq sur.unboundStarts)
  dsimp only at hconfig
  rw [hconfig] at henabled hmanaged ⊢
  dsimp only at henabled hmanaged ⊢
  rw [if_pos (by simp [usesUnbound, henabled, hmanaged, hstarts])]
  rfl

theorem serve_consistent (h : start yaml printable hash env sur file = .ok p)
    (hstarts : sur.unboundStarts = true) (henabled : p.config.unbound.enabled = true)
    (hmanaged : p.config.unbound.managed = true) (now : Int) :
    (p.serve sur.unboundStarts now).Consistent ∧
      (p.serve sur.unboundStarts now).AsksOnly (unboundAddr p.config) := by
  have hupstreams := start_upstreams h hstarts henabled hmanaged
  have hne : p.config.upstreamDNSServers ≠ [] := by rw [hupstreams]; exact List.cons_ne_nil _ _
  have hconsistent : (p.serve sur.unboundStarts now).Consistent :=
    ⟨henabled, newForwarder p.config now, now, if_neg hne, rfl⟩
  refine ⟨hconsistent, (hconsistent.asksOnly_iff _).mpr ⟨hne, ?_⟩⟩
  change ∀ u ∈ p.config.upstreamDNSServers, _
  rw [hupstreams]
  intro u hu
  rw [List.mem_singleton.mp hu]
  exact normalizeUpstream_unboundAddr p.config

/-- After a start with Unbound running, and while the reloads leave it enabled, the forwarder asks
Unbound only, in all states, exactly if every reload is one of a file that names Unbound as the
only upstream; and then all packets of default queries go there. -/
theorem asksOnly_unbound_iff (h : start yaml printable hash env sur file = .ok p)
    (hstarts : sur.unboundStarts = true) (henabled : p.config.unbound.enabled = true)
    (hmanaged : p.config.unbound.managed = true) (now : Int) (run : List Running.Step)
    (hrun : ∀ s ∈ run, s.KeepsUnbound) :
    ((∀ r ∈ states Running.step (p.serve sur.unboundStarts now) run,
        r.AsksOnly (unboundAddr p.config)) ↔
      ∀ s ∈ run, s.NamesOnly (unboundAddr p.config)) ∧
    ∀ r ∈ states Running.step (p.serve sur.unboundStarts now) run,
      r.AsksOnly (unboundAddr p.config) →
      ∀ attempts, ∀ s ∈ r.sent attempts, s.upstream = unboundAddr p.config := by
  obtain ⟨hconsistent, hasks⟩ := serve_consistent h hstarts henabled hmanaged now
  refine ⟨?_, fun r _ hr attempts => hr.sent attempts⟩
  have hkeeps : AllSteps Running.step
      (fun r s => r.Consistent ∧ s.KeepsUnbound)
      (p.serve sur.unboundStarts now) run :=
    AllSteps.imp_of_invariant (fun r s hs hr => ⟨Running.step_consistent hr s hs, hr, hs⟩)
      (allSteps_iff_forall_mem.mpr hrun) hconsistent
  have hiff : (∀ r ∈ states Running.step (p.serve sur.unboundStarts now) run,
      r.AsksOnly (unboundAddr p.config)) ↔
      AllSteps Running.step (fun _ s => s.NamesOnly (unboundAddr p.config))
        (p.serve sur.unboundStarts now) run :=
    forall_states_iff (fun r s hs hgood => Running.step_asksOnly_iff hs.1 s hs.2 hgood) hkeeps hasks
  rw [hiff]
  exact allSteps_iff_forall_mem

end Start

def recursiveFile : Config :=
  { Config.settledConfig with
    unbound := { Config.settledConfig.unbound with enabled := true, managed := true } }

def withUnbound : Surroundings := ⟨lit "dev", none, true⟩

theorem recursiveFile_starts :
    ∃ p, start Config.plainYaml (fun _ => true) (fun _ => none) {} withUnbound recursiveFile =
        .ok p ∧ p.config.unbound.enabled = true ∧ p.config.unbound.managed = true ∧
      unboundAddr p.config = lit "127.0.0.1:5353" :=
  ⟨_, rfl, by decide +kernel, by decide +kernel, by decide +kernel⟩

/-- A file that names Unbound itself is reloaded without harm. -/
theorem asksOnly_unbound_named :
    ∃ p, start Config.plainYaml (fun _ => true) (fun _ => none) {} withUnbound recursiveFile =
        .ok p ∧
      ∀ r ∈ states Running.step (p.serve true 0)
          [.reload { recursiveFile with upstreamDNSServers := [lit "127.0.0.1:5353"] } false],
        r.AsksOnly (lit "127.0.0.1:5353") := by
  obtain ⟨p, hstart, henabled, hmanaged, haddr⟩ := recursiveFile_starts
  refine ⟨p, hstart, ?_⟩
  have hiff := (asksOnly_unbound_iff hstart rfl henabled hmanaged 0
    [.reload { recursiveFile with upstreamDNSServers := [lit "127.0.0.1:5353"] } false]
    (by simp [Running.Step.KeepsUnbound, recursiveFile])).1
  rw [haddr] at hiff
  apply hiff.mpr
  intro s hs
  rw [List.mem_singleton.mp hs]
  exact ⟨List.cons_ne_nil _ _, by decide⟩

/-- A reload of the file as it was at the start sends queries to its upstreams. -/
theorem reload_leaves_unbound :
    ∃ p, start Config.plainYaml (fun _ => true) (fun _ => none) {} withUnbound recursiveFile =
        .ok p ∧ unboundAddr p.config = lit "127.0.0.1:5353" ∧
      ¬ (exec Running.step (p.serve true 0) [.reload recursiveFile false]).AsksOnly
        (lit "127.0.0.1:5353") := by
  obtain ⟨p, hstart, henabled, hmanaged, haddr⟩ := recursiveFile_starts
  refine ⟨p, hstart, haddr, ?_⟩
  obtain ⟨hconsistent, hasks⟩ := serve_consistent hstart rfl henabled hmanaged 0
  rw [exec_cons, exec_nil, ← haddr]
  intro hafter
  have hnames := (Running.step_asksOnly_iff hconsistent (.reload recursiveFile false)
    (by simp [Running.Step.KeepsUnbound, recursiveFile]) hasks).mp hafter
  rw [haddr] at hnames
  exact absurd (hnames.2 (lit "1.1.1.1:53") (by decide)) (by decide)

end GloryHole.Boot
