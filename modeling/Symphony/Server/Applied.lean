import Symphony.Server.Reconcile
/-!
# What a reload leaves running

Two things about every reload, whatever the files hold and however the native layer
answers. Where the running proxies were given ports below 65536, a port that was served and
that the config still names is served at every step and at the end: the server compares the
ports of the file, the addon binds them modulo 65536. And where no entry was skipped, the
running proxies are the last entry of each port set: a config with two entries of one port
set is applied without being served in full.
-/

namespace Symphony.Server

open Lib.Prog (Always Reached)

/-! ## Ports -/

/-- A listener of some entry has the port. -/
def ConfigFile.NamesPort (config : ConfigFile) (port : Nat) : Prop :=
  ∃ spec ∈ config.proxies, ∃ l ∈ spec.listeners.getD [], l.port = some port

theorem mem_listenerPorts {specs : List FileProxyConfig} {port : Nat} :
    port ∈ listenerPorts specs ↔ ∃ spec ∈ specs, ∃ l ∈ spec.listeners.getD [], l.port = some port := by
  unfold listenerPorts
  rw [List.mem_insertionSort, List.mem_dedup, List.mem_flatMap]
  simp only [List.mem_filterMap]

/-- The running proxies were given ports that the addon takes as they are. -/
def Native.InRange (w : Native) : Prop :=
  ∀ n i, w.instances n = some i → i.running = true → ∀ l ∈ i.listeners, l.port < 65536

theorem u16_of_lt {port : Nat} (h : port < 65536) : u16 port = port := Nat.mod_eq_of_lt h

theorem Native.ServesKey.servesPort {w : Native} {key : Bytes} {port : Nat} (h : w.ServesKey key)
    (hport : port ∈ keyPorts key) (hrange : port < 65536) : w.ServesPort port := by
  obtain ⟨n, i, hi, hrun, hne, rfl⟩ := h
  obtain ⟨l, hl, rfl⟩ := List.mem_map.1 ((mem_keyPorts (by simpa using hne) port).1 hport)
  exact ⟨n, i, hi, hrun, List.mem_map.2 ⟨l, hl, u16_of_lt hrange⟩⟩

theorem mem_zipIdx_of_mem {α : Type} {l : List α} {a : α} (h : a ∈ l) : ∃ e ∈ l.zipIdx, e.1 = a := by
  obtain ⟨n, hn, heq⟩ := List.mem_iff_getElem.1 h
  exact ⟨(a, n), List.mem_zipIdx_iff_getElem?.2 (heq ▸ List.getElem?_eq_getElem hn), rfl⟩

section Ports

variable {files : Nat → Files} {s : ServerState} {w : Native} {config : ConfigFile} {port : Nat}

/-- A port that is served is one of an active proxy's key. -/
theorem Serving.key_of_port {active : Active} (hs : Serving active w) (hrange : w.InRange) (h : w.ServesPort port) :
    port < 65536 ∧ ∃ k a, active.lookup k = some a ∧ port ∈ keyPorts k := by
  obtain ⟨n, i, hi, hrun, hport⟩ := h
  obtain ⟨l, hl, rfl⟩ := List.mem_map.1 hport
  have hlt := hrange n i hi hrun l hl
  obtain ⟨k, a, ha, rfl⟩ := hs.only n i hi hrun
  obtain ⟨j, hj, hfor⟩ := hs.serves k a ha
  rw [hi] at hj
  cases hj
  rw [u16_of_lt hlt]
  refine ⟨hlt, k, a, ha, ?_⟩
  rw [hfor.key, mem_keyPorts (by simpa using hfor.named)]
  exact List.mem_map_of_mem hl

theorem mem_key_ports {spec : FileProxyConfig} (hnames : namesPortSet spec = true) {l : FileListenerConfig}
    (hl : l ∈ spec.listeners.getD []) (hport : l.port = some port) : port ∈ keyPorts spec.key := by
  obtain ⟨hne, hnumber⟩ := listeners_of_namesPortSet hnames
  have hl' := hnumber l hl
  rw [hport] at hl'
  cases hl'
  unfold FileProxyConfig.key
  rw [mem_keyPorts (by simpa using hne)]
  exact List.mem_map_of_mem hl

/-- After the entries, a port that was served and is named belongs to a proxy that the
removal spares: the entry's own, or the old one because the entry was skipped. -/
theorem Reconciled.spared_key {l : Reconciling} {w₁ : Native} (hs : Serving s.active w)
    (h : Reconciled files s.active w config.proxies.zipIdx l w₁) (hrange : w.InRange) (hport : w.ServesPort port)
    (hnamed : config.NamesPort port ∨ ∃ spec ∈ config.proxies, namesPortSet spec = false) :
    ∃ k a, l.active.lookup k = some a ∧ l.spares k = true ∧ port ∈ keyPorts k := by
  obtain ⟨-, k, a, ha, hk⟩ := hs.key_of_port hrange hport
  have hkept (k : Bytes) (hshown : (shown l.active w₁ k).isSome = true) : ∃ a, l.active.lookup k = some a := by
    rw [h.serving.shown_isSome] at hshown
    exact Option.isSome_iff_exists.1 hshown
  obtain ⟨a', ha'⟩ := hkept k (h.kept k (by rw [hs.shown_isSome, ha]; rfl))
  rcases hnamed with ⟨spec, hspec, fl, hfl, hflport⟩ | ⟨spec, hspec, hunnamed⟩
  · obtain ⟨e, he, rfl⟩ := mem_zipIdx_of_mem hspec
    rcases h.settled e he with hfailed | ⟨hnames, hshown⟩
    · -- skipped: the old proxy shares the port with it
      refine ⟨k, a', ha', ?_, hk⟩
      have hskipped : port ∈ listenerPorts l.failed := mem_listenerPorts.2 ⟨e.1, hfailed, fl, hfl, hflport⟩
      have hany : ((keyPorts k).any fun port => (listenerPorts l.failed).contains port) = true :=
        List.any_eq_true.2 ⟨port, hk, by simpa using hskipped⟩
      rw [Reconciling.spares, hany, Bool.or_true]
    · -- served: its own proxy
      obtain ⟨a'', ha''⟩ := hkept e.1.key hshown
      refine ⟨e.1.key, a'', ha'', ?_, mem_key_ports hnames hfl hflport⟩
      have hseen : e.1.key ∈ l.seen := (h.seen e.1.key).2 ⟨e, he, hnames, rfl⟩
      rw [Reconciling.spares, List.contains_iff_mem.2 hseen, Bool.true_or, Bool.true_or]
  · -- an entry that does not name its ports spares every proxy
    obtain ⟨e, he, rfl⟩ := mem_zipIdx_of_mem hspec
    refine ⟨k, a', ha', ?_, hk⟩
    rw [Reconciling.spares, h.unidentified e he hunnamed, Bool.or_true, Bool.true_or]

/-- A failed reload never takes a configured port down, where the proxies that run before it
were given ports below 65536. Wherever a reload of a readable config has got to, with any
entries failing in any way, a port that was served before is served if a listener of some
entry names it, or if some entry does not name its ports. -/
theorem reload_keeps_ports (hs : Serving s.active w) (hrange : w.InRange)
    {p : Lib.Prog Op Ans Empty (ServerState × List FileProxyConfig)} {w' : Native}
    (h : Reached Native.performs (doReconcile files s (some config)) w p w') (hport : w.ServesPort port)
    (hnamed : config.NamesPort port ∨ ∃ spec ∈ config.proxies, namesPortSet spec = false) : w'.ServesPort port := by
  obtain ⟨hlt, k, a, ha, hk⟩ := hs.key_of_port hrange hport
  have halways := doReconcile_always files config hs (J := fun w' => w'.ServesPort port)
    (fun w' hall => (hall k a ha).servesPort hk hlt) fun l w₁ w' hl hspared => by
      obtain ⟨k', a', ha', hspares, hk'⟩ := hl.spared_key hs hrange hport hnamed
      exact (hspared k' a' ha' hspares).servesPort hk' hlt
  exact (halways.reached hport h).1

end Ports

/-- An entry with one listener on each of the ports. -/
def entryOn (ports : List Nat) : FileProxyConfig where
  listeners := some (ports.map fun port => { port := some port })
  routes := some []

def allButStart : Op → Bool
  | .start _ => false
  | _ => true

/-- A port moves into another entry, whose proxy can't be started: the port is still served. -/
theorem reload_keeps_ports_moved :
    let files : Nat → Files := fun _ path => .error path
    let before := reload (fun _ => true) files {} (some { proxies := [entryOn [8443]] }) {}
    let moved : ConfigFile := { proxies := [entryOn [8443, 8444]] }
    let after := reload allButStart files before.1.1 (some moved) before.2
    after.1.2 = moved.proxies ∧ after.2.ServesPort 8443 := by
  intro files before moved after
  have hs : Serving before.1.1.active before.2 :=
    (Reloaded.start.reload files _ (reload_reached (fun _ => true) files {} _ {})).serving
  have hi : before.2.instances 0 = some ⟨[⟨8443, none, none, none, none, none, []⟩], [], true⟩ := by decide +kernel
  have hrange : before.2.InRange := by
    intro n i hn _ l hl
    have hnext : before.2.next = 1 := by decide +kernel
    obtain rfl : n = 0 := Nat.lt_one_iff.1 (hnext ▸ hs.allocated n i hn)
    rw [hi] at hn
    cases hn
    rw [List.mem_singleton.1 hl]
    decide
  have hport : before.2.ServesPort 8443 := ⟨0, _, hi, rfl, by decide⟩
  have hnamed : moved.NamesPort 8443 := ⟨entryOn [8443, 8444], by simp [moved], { port := some 8443 }, by decide, rfl⟩
  exact ⟨by decide +kernel, reload_keeps_ports hs hrange (reload_reached _ files _ _ _) hport (.inl hnamed)⟩

/-- The proxy of port 73979 has bound port 8443. A new entry names port 8443 and can't be
started; its ports are not among those of the old key, and the old proxy is stopped. -/
theorem reload_drops_port_out_of_range :
    let files : Nat → Files := fun _ path => .error path
    let before := reload (fun _ => true) files {} (some { proxies := [entryOn [73979]] }) {}
    let named : ConfigFile := { proxies := [entryOn [8443]] }
    let after := reload allButStart files before.1.1 (some named) before.2
    Serving before.1.1.active before.2 ∧
      Reached Native.performs (doReconcile files before.1.1 (some named)) before.2 (.pure after.1) after.2 ∧
      before.2.ServesPort 8443 ∧ named.NamesPort 8443 ∧ ¬after.2.ServesPort 8443 := by
  intro files before named after
  have hs : Serving before.1.1.active before.2 :=
    (Reloaded.start.reload files _ (reload_reached (fun _ => true) files {} _ {})).serving
  have hreached := reload_reached allButStart files before.1.1 (some named) before.2
  refine ⟨hs, hreached, ⟨0, ⟨[⟨73979, none, none, none, none, none, []⟩], [], true⟩, by decide +kernel⟩,
    ⟨entryOn [8443], by simp [named], { port := some 8443 }, by decide, rfl⟩, ?_⟩
  rintro ⟨n, i, hi, hrun, -⟩
  -- nothing is active any more
  have hserving : Serving after.1.1.active after.2 :=
    ((Reloaded.start.reload files _ (reload_reached (fun _ => true) files {} _ {})).reload files _ hreached).serving
  obtain ⟨k, a, ha, -⟩ := hserving.only n i hi hrun
  have hnone : after.1.1.active.entries = [] := by decide +kernel
  have hmem := AList.mem_lookup_iff.1 ha
  rw [hnone] at hmem
  cases hmem

/-! ## Applied configs -/

/-- The endpoints the listeners of an entry name. -/
def FileProxyConfig.endpoints (spec : FileProxyConfig) : List Bytes :=
  (spec.listeners.getD []).map fun l => endpoint l.host l.number

/-- The endpoints that the addon binds for them. -/
def FileProxyConfig.bound (spec : FileProxyConfig) : List Bytes :=
  (spec.listeners.getD []).map fun l => endpoint l.host (u16 l.number)

/-- The routes of an entry, as they are resolved. -/
def routesOf (files : Nat → Files) (e : FileProxyConfig × Nat) : List RouteConfig :=
  (e.1.routes.getD []).map (resolveRoute (files e.2))

/-- The bound endpoints are those the entries name, and each endpoint of an entry is bound
with the routes of the entry. -/
def FullyServed (files : Nat → Files) (config : ConfigFile) (w : Native) : Prop :=
  (∀ endpoint, w.Binds endpoint ↔ ∃ spec ∈ config.proxies, endpoint ∈ spec.endpoints) ∧
    ∀ e ∈ config.proxies.zipIdx, ∀ endpoint ∈ e.1.endpoints, w.BindsWith endpoint (routesOf files e)

/-- Each endpoint that an entry names is bound, with the same routes, for an entry that no
later one shares its port set with, and what is bound for such an entry is named. -/
def LastCovers (files : Nat → Files) (config : ConfigFile) : Prop :=
  (∀ e ∈ config.proxies.zipIdx, ∀ endpoint ∈ e.1.endpoints, ∃ last ∈ config.proxies.zipIdx,
    lastWith last.1.key config.proxies.zipIdx = some last ∧ endpoint ∈ last.1.bound ∧
      routesOf files last = routesOf files e) ∧
  ∀ last ∈ config.proxies.zipIdx, lastWith last.1.key config.proxies.zipIdx = some last →
    ∀ endpoint ∈ last.1.bound, ∃ spec ∈ config.proxies, endpoint ∈ spec.endpoints

theorem lastWith_some {key : Bytes} {entries : List (FileProxyConfig × Nat)} {e : FileProxyConfig × Nat}
    (h : lastWith key entries = some e) : e ∈ entries ∧ e.1.key = key := by
  have hmem := List.mem_of_getLast? h
  rw [List.mem_filter] at hmem
  exact ⟨hmem.1, by simpa using hmem.2⟩

theorem lastWith_isSome {entries : List (FileProxyConfig × Nat)} {e : FileProxyConfig × Nat} (he : e ∈ entries) :
    ∃ last, lastWith e.1.key entries = some last := by
  cases h : lastWith e.1.key entries with
  | some last => exact ⟨last, rfl⟩
  | none =>
    have hnil := List.getLast?_eq_none_iff.1 h
    exact absurd (List.filter_eq_nil_iff.1 hnil e he) (by simp)

/-- What an entry offers is what is bound for it, and its routes. -/
theorem offered_some {files : Nat → Files} {e : FileProxyConfig × Nat} {o : List Bytes × List RouteConfig}
    (h : offered (files e.2) e.1 = some o) : o = (e.1.bound, routesOf files e) := by
  unfold offered at h
  cases hconfig : toProxyConfig (files e.2) e.1 with
  | error error =>
    rw [hconfig] at h
    cases h
  | ok config =>
    rw [hconfig] at h
    cases h
    obtain ⟨-, routes, hroutes, hresolved⟩ := toProxyConfig_ok hconfig
    have hbound := congrArg (List.map fun n : Option Bytes × Nat => endpoint n.1 (u16 n.2)) (toProxyConfig_names hconfig)
    rw [List.map_map, List.map_map] at hbound
    refine Prod.ext hbound ?_
    unfold routesOf
    rw [hroutes]
    exact hresolved

theorem Serving.bindsWith_iff {active : Active} {w : Native} (hs : Serving active w) (endpoint : Bytes)
    (routes : List RouteConfig) :
    w.BindsWith endpoint routes ↔ ∃ k endpoints, shown active w k = some (endpoints, routes) ∧
      endpoint ∈ endpoints := by
  constructor
  · rintro ⟨n, i, hi, hrun, hendpoint, rfl⟩
    obtain ⟨k, a, ha, rfl⟩ := hs.only n i hi hrun
    exact ⟨k, _, by rw [shown, ha, Option.bind_some, hi]; rfl, hendpoint⟩
  · rintro ⟨k, endpoints, hshown, hendpoint⟩
    obtain ⟨a, ha, hmap⟩ := Option.bind_eq_some_iff.1 hshown
    obtain ⟨i, hi, heq⟩ := Option.map_eq_some_iff.1 hmap
    cases heq
    obtain ⟨j, hj, hfor⟩ := hs.serves k a ha
    rw [hi] at hj
    cases hj
    exact ⟨a.proxy, i, hi, hfor.running, hendpoint, rfl⟩

section Applied

variable {files : Nat → Files} {s s' : ServerState} {w w' : Native} {config : ConfigFile}

/-- Where no entry was skipped, what is bound is what the last entry of each port set offers. -/
theorem applied_bindsWith (hs : Serving s.active w)
    (h : Reached Native.performs (doReconcile files s (some config)) w (.pure (s', [])) w') (endpoint : Bytes)
    (routes : List RouteConfig) :
    w'.BindsWith endpoint routes ↔ ∃ last ∈ config.proxies.zipIdx,
      lastWith last.1.key config.proxies.zipIdx = some last ∧ endpoint ∈ last.1.bound ∧
        routesOf files last = routes := by
  obtain ⟨l, w₁, hl, hresult, hserving, hshown⟩ :=
    ((doReconcile_always files config hs (J := fun _ => True) (fun _ _ => trivial) fun _ _ _ _ _ => trivial).reached
      trivial h).2
  have hfailed : l.failed = [] := (congrArg Prod.snd hresult).symm
  have hflag : l.unidentifiedEntry = false := Bool.eq_false_iff.2 fun hflag => hl.flagged hflag hfailed
  have hspares (k : Bytes) : l.spares k = l.seen.contains k := by
    simp [Reconciling.spares, hflag, hfailed, listenerPorts]
  have hnamed {e : FileProxyConfig × Nat} (he : e ∈ config.proxies.zipIdx) :
      namesPortSet e.1 = true ∧ (shown l.active w₁ e.1.key).isSome = true := by
    rcases hl.settled e he with hmem | hnamed
    · rw [hfailed] at hmem
      cases hmem
    · exact hnamed
  -- the last entry of a key is shown under it
  have hlast {last : FileProxyConfig × Nat} (hlast : lastWith last.1.key config.proxies.zipIdx = some last) :
      shown s'.active w' last.1.key = some (last.1.bound, routesOf files last) := by
    have he := (lastWith_some hlast).1
    have hseen : last.1.key ∈ l.seen := (hl.seen last.1.key).2 ⟨last, he, (hnamed he).1, rfl⟩
    rw [hshown, hspares, if_pos (List.contains_iff_mem.2 hseen)]
    have hlatest := hl.latest hfailed last.1.key
    rw [hlast] at hlatest
    obtain ⟨o, ho⟩ := Option.isSome_iff_exists.1 (hnamed he).2
    rw [ho] at hlatest ⊢
    rw [offered_some hlatest.symm]
  rw [hserving.bindsWith_iff]
  constructor
  · rintro ⟨k, endpoints, hk, hendpoint⟩
    rw [hshown, hspares] at hk
    cases hcontains : l.seen.contains k with
    | false =>
      rw [hcontains] at hk
      cases hk
    | true =>
      obtain ⟨e, he, -, rfl⟩ := (hl.seen k).1 (List.contains_iff_mem.1 hcontains)
      obtain ⟨last, hlastkey⟩ := lastWith_isSome he
      obtain ⟨hmem, hkey⟩ := lastWith_some hlastkey
      have hlastwith : lastWith last.1.key config.proxies.zipIdx = some last := by rw [hkey, hlastkey]
      have hshow := hlast hlastwith
      rw [hkey, hshown, hspares] at hshow
      rw [hshow] at hk
      cases hk
      exact ⟨last, hmem, hlastwith, hendpoint, rfl⟩
  · rintro ⟨last, -, hlastwith, hendpoint, rfl⟩
    exact ⟨last.1.key, _, hlast hlastwith, hendpoint⟩

theorem binds_iff (w : Native) (endpoint : Bytes) : w.Binds endpoint ↔ ∃ routes, w.BindsWith endpoint routes := by
  constructor
  · rintro ⟨n, i, hi, hrun, hendpoint⟩
    exact ⟨i.routes, n, i, hi, hrun, hendpoint, rfl⟩
  · rintro ⟨routes, n, i, hi, hrun, hendpoint, -⟩
    exact ⟨n, i, hi, hrun, hendpoint⟩

theorem fullyServed_iff (hs : Serving s.active w)
    (h : Reached Native.performs (doReconcile files s (some config)) w (.pure (s', [])) w') :
    FullyServed files config w' ↔ LastCovers files config := by
  have hbinds := applied_bindsWith hs h
  constructor
  · rintro ⟨hnamed, hroutes⟩
    refine ⟨fun e he endpoint hendpoint => (hbinds endpoint _).1 (hroutes e he endpoint hendpoint), ?_⟩
    intro last hmem hlast endpoint hendpoint
    exact (hnamed endpoint).1 ((binds_iff _ _).2 ⟨_, (hbinds endpoint _).2 ⟨last, hmem, hlast, hendpoint, rfl⟩⟩)
  · rintro ⟨hcovers, hnamed⟩
    refine ⟨fun endpoint => ?_, fun e he endpoint hendpoint => (hbinds endpoint _).2 (hcovers e he endpoint hendpoint)⟩
    rw [binds_iff]
    constructor
    · rintro ⟨routes, hbound⟩
      obtain ⟨last, hmem, hlast, hendpoint, -⟩ := (hbinds endpoint routes).1 hbound
      exact hnamed last hmem hlast endpoint hendpoint
    · rintro ⟨spec, hspec, hendpoint⟩
      obtain ⟨e, he, rfl⟩ := mem_zipIdx_of_mem hspec
      exact ⟨_, (hbinds endpoint _).2 (hcovers e he endpoint hendpoint)⟩

/-- A reload that skips no entry publishes its generation as applied, and then the config is
fully served exactly when every endpoint of an entry, with its routes, is bound for an
entry that no later one shares its port set with, and nothing else is. -/
theorem applied_config_fully_served_iff (hs : Serving s.active w)
    (h : Reached Native.performs (doReconcile files s (some config)) w (.pure (s', [])) w') :
    s'.appliedGeneration = config.generation ∧ s'.failedGeneration = none ∧
      (FullyServed files config w' ↔ LastCovers files config) := by
  obtain ⟨l, w₁, -, hresult, -⟩ :=
    ((doReconcile_always files config hs (J := fun _ => True) (fun _ _ => trivial) fun _ _ _ _ _ => trivial).reached
      trivial h).2
  have hfailed : l.failed = [] := (congrArg Prod.snd hresult).symm
  have hstate : s' = publish { s with active := s'.active } config.generation [] := by
    rw [← hfailed]
    exact congrArg Prod.fst hresult
  refine ⟨?_, ?_, fullyServed_iff hs h⟩
  · rw [hstate]
    cases config.generation <;> rfl
  · rw [hstate]
    cases config.generation <;> rfl

end Applied

instance (files : Nat → Files) (config : ConfigFile) : Decidable (LastCovers files config) :=
  inferInstanceAs (Decidable ((∀ e ∈ config.proxies.zipIdx, ∀ endpoint ∈ e.1.endpoints, ∃ last ∈ config.proxies.zipIdx,
    _) ∧ ∀ last ∈ config.proxies.zipIdx, _ → ∀ endpoint ∈ last.1.bound, ∃ spec ∈ config.proxies, _))

/-- Two port sets: both entries are served. -/
theorem applied_config_fully_served_apart :
    let files : Nat → Files := fun _ path => .error path
    let config : ConfigFile := { generation := some (bytes "1"), proxies := [entryOn [8443, 8444], entryOn [9443]] }
    let after := reload (fun _ => true) files {} (some config) {}
    after.1.1.appliedGeneration = some (bytes "1") ∧ FullyServed files config after.2 := by
  intro files config after
  have hskipped : after.1 = (after.1.1, []) := by
    have hnil : after.1.2 = [] := by decide +kernel
    exact Prod.ext rfl hnil
  have h := reload_reached (fun _ => true) files {} (some config) {}
  change Lib.Prog.Reached _ _ _ (.pure after.1) after.2 at h
  rw [hskipped] at h
  obtain ⟨hgeneration, -, hserved⟩ := applied_config_fully_served_iff serving_empty h
  exact ⟨hgeneration, hserved.2 (by decide +kernel)⟩

/-- One entry for each of two addresses of the same port. -/
def samePortConfig : ConfigFile where
  generation := some (bytes "1")
  proxies := [
    { listeners := some [{ port := some 8443, host := some (bytes "127.0.0.1") }], routes := some [] },
    { listeners := some [{ port := some 8443, host := some (bytes "10.0.0.1") }], routes := some [] }]

/-- The proxy of the second entry replaces that of the first, no entry is skipped, and the
generation is published as applied: 127.0.0.1:8443 is not bound. -/
theorem applied_config_same_port_set :
    let files : Nat → Files := fun _ path => .error path
    let after := reload (fun _ => true) files {} (some samePortConfig) {}
    Serving ({} : ServerState).active {} ∧
      Reached Native.performs (doReconcile files {} (some samePortConfig)) {} (.pure after.1) after.2 ∧
      after.1.2 = [] ∧ after.1.1.appliedGeneration = samePortConfig.generation ∧
      ¬FullyServed files samePortConfig after.2 := by
  intro files after
  have h := reload_reached (fun _ => true) files {} (some samePortConfig) {}
  have hnil : after.1.2 = [] := by decide +kernel
  refine ⟨serving_empty, h, hnil, by decide +kernel, ?_⟩
  change Lib.Prog.Reached _ _ _ (.pure after.1) after.2 at h
  rw [show after.1 = (after.1.1, []) from Prod.ext rfl hnil] at h
  rw [fullyServed_iff serving_empty h]
  decide +kernel

end Symphony.Server
