import GloryHole.Api.Proofs.RejectedEdits

/-!
# What accepted Unbound requests leave in memory

Adding and deleting a forward zone undo each other only for a name with the dot at its end, which
only the handler that adds supplies.  The zones keep distinct names over any run of accepted
requests, and their addresses as long as no update comes without any.  A partial update of the
server block changes the booleans that were sent, some fields unless sent as zero, and eleven
never.
-/

namespace GloryHole.Api

open Go Unbound Support.Runs

variable {env : UnboundEnv} {s : UnboundServer} {r : UnboundRequest}
  {cfg cfg' : UnboundServerConfig} {answer : UnboundAnswer}

/-- What an accepted request has asked for is in memory. -/
theorem handle_ok (h : (s.handle env r).2.isError = false) :
    ∃ cfg answer, r.edit s.getUnboundServerConfig = .ok (cfg, answer) ∧
      (s.handle env r).1.getUnboundServerConfig = cfg := by
  rcases handle_cases env s r with ⟨-, herror⟩ | ⟨cfg, answer, hsup, hedit⟩
  · rw [h] at herror
    cases herror
  · by_cases haccepted : Accepted env s cfg
    · obtain ⟨-, hmemory, -⟩ := handle_accepted hsup hedit haccepted
      refine ⟨cfg, answer, hedit, ?_⟩
      rw [UnboundServer.getUnboundServerConfig, hmemory]
      rfl
    · rw [(handle_rejected hsup hedit haccepted).1] at h
      cases h

/-! ## Forward zones -/

/-- Every zone has an address, and the names are distinct. -/
def ZonesGood (cfg : UnboundServerConfig) : Prop :=
  (∀ z ∈ cfg.forwardZones, z.forwardAddrs ≠ []) ∧ (cfg.forwardZones.map (·.name)).Nodup

def UnboundRequest.HasAddrs : UnboundRequest → Prop
  | .updateForwardZone _ (.ok req) => req.forwardAddrs ≠ []
  | _ => True

theorem handleAddForwardZone_ok {req : ForwardZoneRequest}
    (h : handleAddForwardZone cfg (.ok req) = .ok (cfg', answer)) :
    req.forwardAddrs ≠ [] ∧ (∀ z ∈ cfg.forwardZones, z.name ≠ sanitizeZoneName req.name) ∧
      cfg' = { cfg with
        forwardZones := cfg.forwardZones ++ [req.zone (sanitizeZoneName req.name)] } := by
  simp only [handleAddForwardZone] at h
  split at h
  · cases h
  · split at h
    · cases h
    · rename_i hgiven hnew
      cases h
      exact ⟨fun haddrs => hgiven (.inr haddrs), by simpa using hnew, rfl⟩

theorem replaceZone_eq {name : GoString} (zone : ForwardZone) {zones : List ForwardZone}
    (h : zones.any (·.name == name)) :
    ∃ before old after, zones = before ++ old :: after ∧ old.name = name ∧
      replaceZone name zone zones = before ++ zone :: after := by
  induction zones with
  | nil => cases h
  | cons z zones ih =>
    by_cases hz : z.name = name
    · exact ⟨[], z, zones, rfl, hz, by simp [replaceZone, hz]⟩
    · obtain ⟨before, old, after, hzones, hold, hnew⟩ := ih (by simpa [hz] using h)
      exact ⟨z :: before, old, after, by rw [hzones]; rfl, hold, by simp [replaceZone, hz, hnew]⟩

/-- An update replaces one zone where it stands. -/
theorem handleUpdateForwardZone_ok {path : GoString} {req : ForwardZoneRequest}
    (h : handleUpdateForwardZone cfg path (.ok req) = .ok (cfg', answer)) :
    ∃ before old after, cfg.forwardZones = before ++ old :: after ∧
      old.name = sanitizeZoneName path ∧
      cfg' = { cfg with forwardZones := before ++ req.zone (sanitizeZoneName path) :: after } := by
  simp only [handleUpdateForwardZone] at h
  split at h
  · rename_i hany
    obtain ⟨before, old, after, hzones, hold, hnew⟩ :=
      replaceZone_eq (req.zone (sanitizeZoneName path)) hany
    rw [hnew] at h
    cases h
    exact ⟨before, old, after, hzones, hold, rfl⟩
  · cases h

theorem zonesGood_edit (h : r.edit cfg = .ok (cfg', answer)) (hgood : ZonesGood cfg) :
    ZonesGood cfg' ↔ r.HasAddrs := by
  obtain ⟨haddrs, hnames⟩ := hgood
  cases r with
  | updateServer body =>
    cases body with
    | error err => cases h
    | ok sent =>
      cases h
      exact iff_of_true ⟨haddrs, hnames⟩ trivial
  | addForwardZone body =>
    cases body with
    | error err => cases h
    | ok req =>
      obtain ⟨hgiven, hnew, rfl⟩ := handleAddForwardZone_ok h
      refine iff_of_true ⟨?_, ?_⟩ trivial
      · intro z hz
        rcases List.mem_append.mp hz with hz | hz
        · exact haddrs z hz
        · obtain rfl := List.mem_singleton.mp hz
          exact hgiven
      · show ((cfg.forwardZones ++ [_]).map _).Nodup
        rw [List.map_append, List.map_singleton, List.nodup_append_comm, List.singleton_append,
          List.nodup_cons]
        refine ⟨?_, hnames⟩
        intro hmem
        obtain ⟨z, hz, hname⟩ := List.mem_map.mp hmem
        exact hnew z hz hname
  | updateForwardZone path body =>
    cases body with
    | error err => cases h
    | ok req =>
      obtain ⟨before, old, after, hzones, hold, rfl⟩ := handleUpdateForwardZone_ok h
      rw [hzones] at haddrs hnames
      constructor
      · rintro ⟨hnow, -⟩
        exact hnow (req.zone (sanitizeZoneName path)) (by simp)
      · intro hgiven
        refine ⟨?_, by simpa [← hold, ForwardZoneRequest.zone] using hnames⟩
        intro z hz
        rcases List.mem_append.mp hz with hz | hz
        · exact haddrs z (by simp [hz])
        · rcases List.mem_cons.mp hz with rfl | hz
          · exact hgiven
          · exact haddrs z (by simp [hz])
  | deleteForwardZone path =>
    simp only [UnboundRequest.edit, handleDeleteForwardZone] at h
    split at h
    · cases h
      have hsub := List.eraseP_sublist (p := (·.name == path)) (l := cfg.forwardZones)
      refine iff_of_true ⟨fun z hz => haddrs z (hsub.subset hz), ?_⟩ trivial
      exact hnames.sublist (hsub.map _)
    · cases h

/-- Deleting the name that was added restores the zones exactly if the name ends in a dot. -/
theorem delete_of_add_iff {req : ForwardZoneRequest}
    (h : handleAddForwardZone cfg (.ok req) = .ok (cfg', answer)) :
    handleDeleteForwardZone cfg' req.name = .ok (cfg, .noContent) ↔
      hasSuffix req.name (lit ".") = true := by
  obtain ⟨-, hnew, rfl⟩ := handleAddForwardZone_ok h
  unfold handleDeleteForwardZone
  by_cases hdot : hasSuffix req.name (lit ".") = true
  · have hname : sanitizeZoneName req.name = req.name := by simp [sanitizeZoneName, hdot]
    rw [hname] at hnew ⊢
    have herase : (cfg.forwardZones ++ [req.zone req.name]).eraseP (·.name == req.name) =
        cfg.forwardZones := by
      rw [List.eraseP_append_right _ (by simpa using hnew)]
      simp [ForwardZoneRequest.zone]
    refine iff_of_true ?_ hdot
    rw [if_pos (by simp [ForwardZoneRequest.zone]), herase]
  · have hname : sanitizeZoneName req.name ≠ req.name := by
      rw [sanitizeZoneName, if_pos hdot]
      simp [lit]
    refine iff_of_false ?_ hdot
    split
    · intro hdelete
      have hzones : (cfg.forwardZones ++ [req.zone (sanitizeZoneName req.name)]).eraseP
          (·.name == req.name) = cfg.forwardZones := by
        injection hdelete with hpair
        exact congrArg (·.1.forwardZones) hpair
      have hkept : req.zone (sanitizeZoneName req.name) ∈ cfg.forwardZones := by
        rw [← hzones, List.mem_eraseP_of_neg (by simpa [ForwardZoneRequest.zone] using hname)]
        simp
      exact hnew _ hkept rfl
    · intro hdelete
      cases hdelete

structure ZoneStep where
  env : UnboundEnv
  request : UnboundRequest

def ZoneStep.apply (s : UnboundServer) (i : ZoneStep) : UnboundServer :=
  (s.handle i.env i.request).1

/-- Deleting what was added, updating in place, and the zones over runs of accepted requests. -/
theorem forward_zones_laws (s : UnboundServer) (run : List ZoneStep) :
    (∀ {cfg cfg' answer} {req : ForwardZoneRequest},
      handleAddForwardZone cfg (.ok req) = .ok (cfg', answer) →
      (handleDeleteForwardZone cfg' req.name = .ok (cfg, .noContent) ↔
        hasSuffix req.name (lit ".") = true)) ∧
    (∀ {cfg cfg' answer path} {req : ForwardZoneRequest},
      handleUpdateForwardZone cfg path (.ok req) = .ok (cfg', answer) →
      ∃ before old after, cfg.forwardZones = before ++ old :: after ∧
        cfg' = { cfg with forwardZones := before ++ req.zone old.name :: after }) ∧
    (ZonesGood s.getUnboundServerConfig →
      AllSteps ZoneStep.apply (fun s i => (s.handle i.env i.request).2.isError = false) s run →
      ((∀ t ∈ states ZoneStep.apply s run, ZonesGood t.getUnboundServerConfig) ↔
        ∀ i ∈ run, i.request.HasAddrs)) := by
  refine ⟨delete_of_add_iff, ?_, ?_⟩
  · intro cfg cfg' answer path req h
    obtain ⟨before, old, after, hzones, hold, hcfg⟩ := handleUpdateForwardZone_ok h
    exact ⟨before, old, after, hzones, by rw [hcfg, hold]⟩
  · intro hgood hrun
    rw [← @allSteps_iff_forall_mem _ _ ZoneStep.apply]
    refine forall_states_iff ?_ hrun hgood
    intro s i hok hgood
    obtain ⟨cfg, answer, hedit, hmemory⟩ := handle_ok hok
    rw [ZoneStep.apply, hmemory]
    exact zonesGood_edit hedit hgood

def corpZone (addr : String) : ForwardZoneRequest :=
  { name := lit "corp.", forwardAddrs := [lit addr] }

def withCorp (addr : String) : UnboundServerConfig :=
  { freshConfig with forwardZones := [(corpZone addr).zone (lit "corp.")] }

def corpRun : List ZoneStep :=
  [⟨smooth, .addForwardZone (.ok (corpZone "10.0.0.1"))⟩,
    ⟨smooth, .updateForwardZone (lit "corp.") (.ok (corpZone "10.0.0.2"))⟩]

theorem forward_zones_laws_corp :
    handleDeleteForwardZone (withCorp "10.0.0.1") (lit "corp.") =
        .ok (freshConfig, .noContent) ∧
    (∃ before old after, (withCorp "10.0.0.1").forwardZones = before ++ old :: after ∧
      withCorp "10.0.0.2" = { withCorp "10.0.0.1" with
        forwardZones := before ++ (corpZone "10.0.0.2").zone old.name :: after }) ∧
    ∀ t ∈ states ZoneStep.apply freshServer corpRun, ZonesGood t.getUnboundServerConfig := by
  obtain ⟨hdelete, hupdate, hrun⟩ := forward_zones_laws freshServer corpRun
  refine ⟨(hdelete (show handleAddForwardZone freshConfig (.ok (corpZone "10.0.0.1")) = _
    from rfl)).mpr rfl, ?_, (hrun ?_ (by decide +kernel)).mpr ?_⟩
  · exact hupdate (show handleUpdateForwardZone (withCorp "10.0.0.1") (lit "corp.")
      (.ok (corpZone "10.0.0.2")) = .ok (withCorp "10.0.0.2", _) from rfl)
  · exact ⟨by decide, by decide⟩
  · simp [corpRun, UnboundRequest.HasAddrs, corpZone]

/-- A zone added without the dot is not found under its name, and an update takes
the addresses of a zone away. -/
theorem forward_zone_unsafe :
    let s := (freshServer.handle smooth (zoneRequest (lit "10.0.0.1"))).1
    let t := (s.handle smooth (.updateForwardZone (lit "lan") (.ok {}))).1
    s.getUnboundServerConfig.forwardZones = [⟨lit "lan.", [lit "10.0.0.1"], false, false⟩] ∧
      (s.handle smooth (.deleteForwardZone (lit "lan"))).2 =
        .error 404 (lit "Forward zone not found: lan") ∧
      (s.handle smooth (.updateForwardZone (lit "lan") (.ok {}))).2.isError = false ∧
      t.getUnboundServerConfig.forwardZones = [⟨lit "lan.", [], false, false⟩] := by
  decide +kernel

/-! ## The server block -/

structure ServerField where
  key : String
  Value : Type
  get : ServerBlock → Value

/-- The fields that the update takes if they were sent. -/
def sentFields : List ServerField :=
  [⟨"harden_glue", _, (·.hardenGlue)⟩, ⟨"harden_dnssec_stripped", _, (·.hardenDNSSEC)⟩,
    ⟨"harden_below_nxdomain", _, (·.hardenBelowNX)⟩,
    ⟨"harden_algo_downgrade", _, (·.hardenAlgoDown)⟩, ⟨"qname_minimisation", _, (·.qnameMin)⟩,
    ⟨"aggressive_nsec", _, (·.aggressiveNSEC)⟩, ⟨"serve_expired", _, (·.serveExpired)⟩,
    ⟨"prefetch", _, (·.prefetch)⟩, ⟨"prefetch_key", _, (·.prefetchKey)⟩,
    ⟨"log_queries", _, (·.logQueries)⟩, ⟨"log_replies", _, (·.logReplies)⟩,
    ⟨"log_servfail", _, (·.logServfail)⟩, ⟨"hide_identity", _, (·.hideIdentity)⟩,
    ⟨"hide_version", _, (·.hideVersion)⟩, ⟨"minimal_responses", _, (·.minimalResponses)⟩,
    ⟨"extended_statistics", _, (·.extendedStatistics)⟩,
    ⟨"statistics_cumulative", _, (·.statisticsCumulative)⟩, ⟨"so_reuseport", _, (·.soReusePort)⟩]

/-- The fields that the update takes unless they are zero. -/
def nonZeroFields : List ServerField :=
  [⟨"msg_cache_size", _, (·.msgCacheSize)⟩, ⟨"rrset_cache_size", _, (·.rrsetCacheSize)⟩,
    ⟨"key_cache_size", _, (·.keyCacheSize)⟩, ⟨"module_config", _, (·.moduleConfig)⟩,
    ⟨"cache_max_ttl", _, (·.cacheMaxTTL)⟩, ⟨"cache_min_ttl", _, (·.cacheMinTTL)⟩,
    ⟨"cache_max_negative_ttl", _, (·.cacheMaxNegTTL)⟩, ⟨"num_threads", _, (·.numThreads)⟩,
    ⟨"verbosity", _, (·.verbosity)⟩, ⟨"serve_expired_ttl", _, (·.serveExpiredTTL)⟩,
    ⟨"domain_insecure", _, (·.domainInsecure)⟩]

/-- The fields that the update leaves alone. -/
def fixedFields : List ServerField :=
  [⟨"interface", _, (·.interface)⟩, ⟨"port", _, (·.port)⟩,
    ⟨"edns_buffer_size", _, (·.ednsBufferSize)⟩, ⟨"outgoing_range", _, (·.outgoingRange)⟩,
    ⟨"num_queries_per_thread", _, (·.numQueriesPerThread)⟩,
    ⟨"serve_expired_client_timeout", _, (·.serveExpiredClientTimeout)⟩,
    ⟨"tls_cert_bundle", _, (·.tlsCertBundle)⟩, ⟨"root_hints", _, (·.rootHints)⟩,
    ⟨"auto_trust_anchor_file", _, (·.autoTrustAnchor)⟩,
    ⟨"access_control", _, (·.accessControl)⟩, ⟨"private_address", _, (·.privateAddress)⟩]

def serverFields : List ServerField := sentFields ++ nonZeroFields ++ fixedFields

section

variable (base update : ServerBlock) (sent : List GoString)

def ServerField.Merged (f : ServerField) (result : ServerBlock) : Prop :=
  f.get result = if lit f.key ∈ sent then f.get update else f.get base

theorem merge_sentFields :
    ∀ f ∈ sentFields, f.Merged base update sent (mergeServerBlock base update sent) := by
  simp only [sentFields, List.forall_mem_cons, List.not_mem_nil, false_imp_iff, implies_true,
    and_true, ServerField.Merged, mergeServerBlock]

theorem mergeNonZero_cases {α : Type} [DecidableEq α] (zero base update : α) :
    mergeNonZero zero base update = update ∧ update ≠ zero ∨
      mergeNonZero zero base update = base ∧ update = zero := by
  unfold mergeNonZero
  split
  · exact .inl ⟨rfl, ‹_›⟩
  · exact .inr ⟨rfl, not_not.mp ‹_›⟩

theorem merge_nonZeroFields :
    ∀ f ∈ nonZeroFields,
      f.get (mergeServerBlock base update sent) = f.get update ∧ f.get update ≠ f.get {} ∨
        f.get (mergeServerBlock base update sent) = f.get base ∧ f.get update = f.get {} := by
  simp only [nonZeroFields, List.forall_mem_cons, List.not_mem_nil, false_imp_iff, implies_true,
    and_true, mergeServerBlock, mergeNonZero_cases]

theorem merge_fixedFields :
    ∀ f ∈ fixedFields, f.get (mergeServerBlock base update sent) = f.get base := by
  simp only [fixedFields, List.forall_mem_cons, List.not_mem_nil, false_imp_iff, implies_true,
    and_true, mergeServerBlock]

end

/-- A successful update does what was requested exactly if no field was sent as zero that was not
zero before, and none of the fields it leaves alone was sent with another value. -/
theorem server_update_as_requested_iff {update : ServerBlock} {sent : List GoString}
    (hok : (s.handle env (.updateServer (.ok (update, sent)))).2.isError = false)
    (hdecoded : ∀ f ∈ serverFields, lit f.key ∉ sent → f.get update = f.get {}) :
    let base := s.getUnboundServerConfig.server
    (∀ f ∈ serverFields, f.Merged base update sent
      (s.handle env (.updateServer (.ok (update, sent)))).1.getUnboundServerConfig.server) ↔
    (∀ f ∈ nonZeroFields, lit f.key ∈ sent → f.get update = f.get {} → f.get base = f.get {}) ∧
      ∀ f ∈ fixedFields, lit f.key ∈ sent → f.get update = f.get base := by
  intro base
  obtain ⟨cfg, answer, hedit, hmemory⟩ := handle_ok hok
  cases hedit
  rw [hmemory]
  show (∀ f ∈ serverFields, f.Merged base update sent (mergeServerBlock base update sent)) ↔ _
  simp only [serverFields, List.forall_mem_append] at hdecoded ⊢
  rw [and_iff_right (merge_sentFields base update sent)]
  refine and_congr (forall₂_congr fun f hf => ?_) (forall₂_congr fun f hf => ?_)
  · have hcases := merge_nonZeroFields base update sent f hf
    have hzero := hdecoded.1.2 f hf
    unfold ServerField.Merged
    by_cases hsent : lit f.key ∈ sent
    · rw [if_pos hsent]
      rcases hcases with ⟨hnew, hne⟩ | ⟨hold, hz⟩
      · simp [hnew, hne]
      · rw [hold, hz]
        simp [hsent]
    · rw [if_neg hsent]
      rcases hcases with ⟨-, hne⟩ | ⟨hold, -⟩
      · exact absurd (hzero hsent) hne
      · simp [hold, hsent]
  · have hold := merge_fixedFields base update sent f hf
    unfold ServerField.Merged
    by_cases hsent : lit f.key ∈ sent
    · simp [hold, hsent, eq_comm]
    · simp [hold, hsent]

theorem server_update_log_queries :
    serverFields.Forall fun f =>
      f.Merged freshServer.getUnboundServerConfig.server { logQueries := true } [lit "log_queries"]
        (freshServer.handle smooth (.updateServer
          (.ok ({ logQueries := true },
            [lit "log_queries"])))).1.getUnboundServerConfig.server := by
  apply List.forall_iff_forall_mem.mpr
  apply (server_update_as_requested_iff (by decide +kernel) ?_).mpr
  · simp [nonZeroFields, fixedFields, lit]
  · simp [serverFields, sentFields, nonZeroFields, fixedFields, lit]

/-- A verbosity of zero and another port are accepted and ignored. -/
theorem server_update_ignores :
    let update : UnboundRequest :=
      .updateServer (.ok ({ port := 5354 }, [lit "verbosity", lit "port"]))
    (freshServer.handle smooth update).2.isError = false ∧
      (freshServer.handle smooth update).1.getUnboundServerConfig.server.verbosity = 1 ∧
      (freshServer.handle smooth update).1.getUnboundServerConfig.server.port = 5353 := by
  decide +kernel

end GloryHole.Api
