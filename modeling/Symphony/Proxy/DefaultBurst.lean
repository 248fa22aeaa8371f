import Symphony.Lib.Writes
import Symphony.Protection.Blocked
import Symphony.Proxy.Config
/-!
# Limits without a burst

`precompute` takes the rate itself for the ceiling of a limit that gives no burst, and a
connection costs a whole token. At a rate of less than one the ceiling is less than a token,
so the bucket can never pay: every connection is rate limited. At a rate of at least one a
client that waits is not, when it waits from the reading its entry was created with and a
little longer than a token takes, for the rounding.
-/

namespace Symphony.Proxy

open Lib (Binary64.round Bucket Machine bind_ok)
open Protection (Decision Event IpState Limit ONE_TOKEN Owned ProtectionConfig ProtectionState as_u32 check_at consume
  entryAt evict_at ip_check refill_and_consume_grants)
open Router (Crates)
open Sni (PeekInfo)

/-! ## Accepted limits -/

/-- The rate that the block of a limit gives: connections a second, or a minute. -/
def JsProtectionConfig.rate (prot : JsProtectionConfig) : Limit → Option F64
  | .perSecond => prot.rate_limit.map (·.connections_per_second)
  | .sustained => prot.sustained.map (·.connections_per_minute)

def JsProtectionConfig.burst (prot : JsProtectionConfig) : Limit → Option F64
  | .perSecond => prot.rate_limit.bind (·.burst)
  | .sustained => prot.sustained.bind (·.burst)

/-- The nanoseconds of the second or the minute that a rate is over. -/
def span : Limit → ℚ
  | .perSecond => 1000000000
  | .sustained => 60000000000

theorem span_pos (k : Limit) : 0 < span k := by
  cases k <;> norm_num [span]

/-- A block without a burst that is accepted has a positive rate. -/
theorem parse_rate_unburst {rate_field burst_field : Bytes} {rate : F64} {r : ℚ} {b : Option ℚ}
    (h : parse_rate rate_field burst_field rate none = .ok (r, b)) : rate = .finite r ∧ 0 < r ∧ b = none := by
  unfold parse_rate at h
  obtain ⟨r', hr, h⟩ := bind_ok h
  cases h
  unfold finite_number at hr
  cases rate with
  | finite q =>
    by_cases hq : 0 < q
    · simp only [hq, true_or, if_true] at hr
      cases hr
      exact ⟨rfl, hq, rfl⟩
    · simp [hq] at hr
  | infinite negative => cases hr
  | nan => cases hr

theorem block_unburst {α : Type} {block : Option α} {parse : α → Except Error (ℚ × Option ℚ)}
    {rate_field burst_field : Bytes} {rate : α → F64} {burst : α → Option F64}
    (hparse : ∀ x, parse x = parse_rate rate_field burst_field (rate x) (burst x)) (hburst : block.bind burst = none)
    {parsed : Option (ℚ × Option ℚ)} (h : block.mapM parse = .ok parsed) :
    (block = none ∧ parsed = none) ∨
      ∃ x q, block = some x ∧ parsed = some (q, none) ∧ rate x = .finite q ∧ 0 < q := by
  cases block with
  | none =>
    cases h
    exact .inl ⟨rfl, rfl⟩
  | some x =>
    obtain ⟨⟨r, b⟩, hr, h⟩ := bind_ok h
    cases h
    rw [hparse, show burst x = none from hburst] at hr
    obtain ⟨hrate, hpos, rfl⟩ := parse_rate_unburst hr
    exact .inr ⟨x, r, rfl, rfl, hrate, hpos⟩

/-- A limit of an accepted config that gives no burst: off, or with its rate as ceiling. -/
inductive Unburst (cfg : ProtectionConfig) (k : Limit) : Option F64 → Prop
  | off (h : cfg.rate k = 0) : Unburst cfg k none
  | on {q : ℚ} (hq : 0 < q) (hrate : cfg.rate k = Binary64.round (q / span k))
    (hceiling : cfg.ceiling k = as_u32 (Binary64.round (q * 1000))) : Unburst cfg k (some (.finite q))

section Accepted

variable {D : Type} {C : Crates D} {prot : JsProtectionConfig} {cfg : ProtectionConfig}
  (h : parse_protection_config C prot Binary64.round = .ok cfg)
include h

/-- An accepted config is precomputed from the blocks it was given. -/
theorem parse_protection_blocks : ∃ rate sustained raw, prot.rate_limit.mapM parse_rate_limit = .ok rate ∧
    prot.sustained.mapM parse_sustained = .ok sustained ∧ cfg = ProtectionConfig.precompute raw Binary64.round ∧
    raw.rate_limit_cps = rate.map (·.1) ∧ raw.rate_limit_burst = rate.bind (·.2) ∧
    raw.sustained_cpm = sustained.map (·.1) ∧ raw.sustained_burst = sustained.bind (·.2) := by
  unfold parse_protection_config at h
  obtain ⟨rate, hrate, h⟩ := bind_ok h
  obtain ⟨sustained, hsustained, h⟩ := bind_ok h
  obtain ⟨ja3s, -, h⟩ := bind_ok h
  obtain ⟨ja4s, -, h⟩ := bind_ok h
  obtain ⟨allowlist, -, h⟩ := bind_ok h
  obtain ⟨blocklist, -, h⟩ := bind_ok h
  cases h
  exact ⟨rate, sustained, _, hrate, hsustained, rfl, rfl, rfl, rfl, rfl⟩

theorem parse_precomputed : cfg.precompute Binary64.round = cfg := by
  obtain ⟨rate, sustained, raw, -, -, rfl, -⟩ := parse_protection_blocks h
  rfl

theorem parse_unburst (hburst : ∀ k, prot.burst k = none) (k : Limit) : Unburst cfg k (prot.rate k) := by
  obtain ⟨rate, sustained, raw, hrate, hsustained, rfl, hcps, hcb, hcpm, hmb⟩ := parse_protection_blocks h
  cases k with
  | perSecond =>
    unfold JsProtectionConfig.rate
    rcases block_unburst (fun _ => rfl) (hburst .perSecond) hrate with ⟨hnone, rfl⟩ | ⟨block, q, hblock, rfl, hq, hpos⟩
    · rw [hnone]
      exact .off (by simp [ProtectionConfig.precompute, ProtectionConfig.rate, hcps])
    · rw [hblock, Option.map_some, hq]
      exact .on hpos (by simp [ProtectionConfig.precompute, ProtectionConfig.rate, hcps, span])
        (by simp [ProtectionConfig.precompute, ProtectionConfig.ceiling, hcps, hcb])
  | sustained =>
    unfold JsProtectionConfig.rate
    rcases block_unburst (fun _ => rfl) (hburst .sustained) hsustained with
      ⟨hnone, rfl⟩ | ⟨block, q, hblock, rfl, hq, hpos⟩
    · rw [hnone]
      exact .off (by simp [ProtectionConfig.precompute, ProtectionConfig.rate, hcpm])
    · rw [hblock, Option.map_some, hq]
      exact .on hpos (by simp [ProtectionConfig.precompute, ProtectionConfig.rate, hcpm, span])
        (by simp [ProtectionConfig.precompute, ProtectionConfig.ceiling, hcpm, hmb])

end Accepted

/-! ## Readings of checks and entries -/

/-- The protection state with f64 arithmetic. An event comes with the reading that
`IpState::new` takes if the event is a check and creates the entry. -/
def clocked : Machine ProtectionState (Event × Nat) (Option Decision) where
  step st
    | (.check peer_ip peek_info now, created) =>
      (some (check_at st peer_ip peek_info now created Binary64.round).1,
        (check_at st peer_ip peek_info now created Binary64.round).2)
    | (.evict now, _) => (none, evict_at st now Binary64.round)
    | (.release id, _) => (none, Protection.release st id)
  reading e := Protection.machine.reading e.1

/-- A check of `ip` in the log read `r`, for itself or for the entry it created. -/
def ReadAt (ip : IpAddr) (log : List ((Event × Nat) × Option Decision)) (r : Nat) : Prop :=
  ∃ x ∈ log, ∃ peer_ip info now, x.1.1 = Event.check peer_ip info now ∧ peer_ip.to_canonical = ip ∧
    (r = now ∨ r = x.1.2)

theorem ReadAt.append {ip : IpAddr} {log : List ((Event × Nat) × Option Decision)} {r : Nat} (h : ReadAt ip log r)
    (more : List ((Event × Nat) × Option Decision)) : ReadAt ip (log ++ more) r := by
  obtain ⟨x, hx, hread⟩ := h
  exact ⟨x, List.mem_append_left _ hx, hread⟩

/-- Debiting leaves each timestamp, or sets it to the reading. -/
theorem consume_last (cfg : ProtectionConfig) (j k : Limit) (now : Nat) (s : IpState) (round : ℚ → ℚ) :
    ((consume cfg j now s round).2.bucket k).last = (s.bucket k).last ∨
      ((consume cfg j now s round).2.bucket k).last = now := by
  by_cases hkj : k = j
  · subst hkj
    unfold consume
    split
    · rw [Protection.bucket_setBucket]
      exact Protection.refill_and_consume_last _ _ _ _ _
    · exact .inl rfl
  · rw [Protection.consume_other cfg hkj now s round]
    exact .inl rfl

theorem ip_check_last (cfg : ProtectionConfig) (k : Limit) (now : Nat) (s : IpState) (round : ℚ → ℚ) :
    ((ip_check cfg now s round).2.bucket k).last = (s.bucket k).last ∨
      ((ip_check cfg now s round).2.bucket k).last = now := by
  have h₁ := consume_last cfg .perSecond k now s round
  have h₂ := consume_last cfg .sustained k now (consume cfg .perSecond now s round).2 round
  have h₁₂ := h₂.elim (fun h => h.symm ▸ h₁) .inr
  unfold ip_check
  dsimp only
  split
  · split
    · exact h₁₂
    · rwa [Protection.bucket_extend_penalty]
  · split
    · rwa [Protection.bucket_penalize]
    · split
      · rwa [Protection.bucket_penalize]
      · split
        · split
          · rwa [Protection.bucket_active]
          · exact h₁₂
        · rwa [Protection.bucket_active]

/-- Along any run each timestamp of an entry was read by a check of its address. -/
theorem run_dated {cfg : ProtectionConfig} {st : ProtectionState} {clock : Nat}
    {log : List ((Event × Nat) × Option Decision)} (h : clocked.Run (.fresh cfg) st clock log) :
    st.config = cfg ∧ Owned st ∧ ∀ ip id, st.ip_table.lookup ip = some id →
      ∀ k, ReadAt ip log ((st.states id).bucket k).last := by
  refine h.inv (fun st _ log => st.config = cfg ∧ Owned st ∧ ∀ ip id, st.ip_table.lookup ip = some id →
    ∀ k, ReadAt ip log ((st.states id).bucket k).last) ⟨rfl, .fresh cfg, fun _ _ hl => by cases hl⟩ ?_
  rintro st clock log ⟨e, created⟩ ⟨hcfg, howned, hall⟩ -
  cases e with
  | release id =>
    refine ⟨hcfg, howned.setState _ _, fun ip id' hl k => ?_⟩
    have hold := (hall ip id' hl k).append [((.release id, created), none)]
    change ReadAt ip _ ((Function.update st.states id (st.states id).release id').bucket k).last
    by_cases hid : id' = id
    · subst hid
      rwa [Function.update_self, Protection.bucket_release]
    · rwa [Function.update_of_ne hid]
  | evict now =>
    exact ⟨hcfg, howned.evict now, fun ip id hl k => (hall ip id (Protection.lookup_evict_at now hl) k).append _⟩
  | check peer_ip info now =>
    refine ⟨howned.check_at.2.trans hcfg, howned.check_at.1, fun ip id hl k => ?_⟩
    rcases howned.check_at_lookup hl with ⟨hold, hs⟩ | ⟨-, rfl, hs⟩
    · have hkept := (hall ip id hold k).append [((.check peer_ip info now, created), some
        (check_at st peer_ip info now created Binary64.round).1)]
      rwa [← hs] at hkept
    · -- the entry checked: dated by this check, or as the check found it
      have hnow : ∀ r, r = now ∨ r = created → ReadAt peer_ip.to_canonical (log ++ [((.check peer_ip info now, created),
          some (check_at st peer_ip info now created Binary64.round).1)]) r := fun r hr =>
        ⟨_, List.mem_append_right _ (List.mem_singleton_self _), peer_ip, info, now, rfl, rfl, hr⟩
      change ReadAt _ _ (((check_at st peer_ip info now created Binary64.round).2.states id).bucket k).last
      rw [hs]
      rcases ip_check_last st.config k now (entryAt st peer_ip.to_canonical created) Binary64.round with hlast | hlast
      · rw [hlast]
        unfold entryAt
        cases hl : st.ip_table.lookup peer_ip.to_canonical with
        | none =>
          rw [Option.elim_none, Protection.bucket_new]
          exact hnow _ (.inr rfl)
        | some old => exact (hall _ old hl k).append _
      · exact hnow _ (.inl hlast)

/-! ## Nobody is locked out, when the rates are at least one -/

/-- `now` is a token's period of each limit, and one part in `2 ^ 50` of it, after every
reading that a check of `ip` in the log took. -/
def Waited (prot : JsProtectionConfig) (ip : IpAddr) (log : List ((Event × Nat) × Option Decision)) (now : Nat) : Prop :=
  ∀ r, ReadAt ip log r → ∀ k q, prot.rate k = some (.finite q) → (1 + 1 / 2 ^ 50) * (span k / q) ≤ (now : ℚ) - r

/-- A limit that is on, at a rate of at least one, pays a client that is new or waited. -/
theorem consume_passes {cfg : ProtectionConfig} {k : Limit} {rate : Option F64} (hunburst : Unburst cfg k rate)
    (hone : ∀ q, rate = some (.finite q) → 1 ≤ q) {now : Nat} {s : IpState}
    (hw : ∀ q, rate = some (.finite q) → s.bucket k = ⟨cfg.ceiling k, (s.bucket k).last⟩ ∨
      (1 + 1 / 2 ^ 50) * (span k / q) ≤ (now : ℚ) - (s.bucket k).last) :
    (consume cfg k now s Binary64.round).1 = true := by
  cases hunburst with
  | off hoff => simp [consume, hoff]
  | on hq hrate hceiling =>
    rename_i q
    have hone := hone q rfl
    have hburst : ONE_TOKEN ≤ cfg.ceiling k := hceiling ▸ Protection.one_token_le_as_u32 hone
    have hgrants : (Protection.refill_and_consume (s.bucket k) now (cfg.rate k) (cfg.ceiling k) Binary64.round).1 =
        true := by
      apply refill_and_consume_grants hburst
      rcases hw q rfl with hnew | hwaited
      · left
        rw [hnew]
        exact hburst
      · right
        have hpos := span_pos k
        have hle : (s.bucket k).last ≤ now := by
          have : ((s.bucket k).last : ℚ) ≤ now := by
            have : 0 < (1 + 1 / 2 ^ 50) * (span k / q) := by positivity
            linarith
          exact_mod_cast this
        rw [hrate]
        apply Protection.one_token_le_refillFor
        apply Lib.Binary64.one_le_mul
        · calc (2 : ℚ) ^ (-1022 : ℤ) ≤ 2 ^ (-40 : ℤ) := zpow_le_zpow_right₀ one_le_two (by norm_num)
            _ ≤ 1 / span k := by cases k <;> norm_num [span]
            _ ≤ q / span k := div_le_div_of_nonneg_right hone hpos.le
        · rw [Nat.cast_sub hle]
          calc (1 + 1 / 2 ^ 50 : ℚ) = (1 + 1 / 2 ^ 50) * (span k / q) * (q / span k) := by field_simp
            _ ≤ ((now : ℚ) - (s.bucket k).last) * (q / span k) := mul_le_mul_of_nonneg_right hwaited (by positivity)
    unfold consume
    split
    · exact hgrants
    · rfl

theorem ip_check_passes {cfg : ProtectionConfig} {now : Nat} {s : IpState} {round : ℚ → ℚ}
    (h₁ : (consume cfg .perSecond now s round).1 = true)
    (h₂ : (consume cfg .sustained now (consume cfg .perSecond now s round).2 round).1 = true) :
    (ip_check cfg now s round).1 ≠ some .RateLimited := by
  unfold ip_check
  simp only [h₁, h₂]
  split
  · simp
  · split_ifs <;> simp_all

/-- **A limit without a burst.** Under an accepted config that gives no burst and whose
rates are at least one, after any run: a check of an address that has no entry, or that
waited since each reading of its checks, is not rate limited. -/
theorem unburst_passes {D : Type} (C : Crates D) {prot : JsProtectionConfig} {cfg : ProtectionConfig}
    (hparse : parse_protection_config C prot Binary64.round = .ok cfg) (hburst : ∀ k, prot.burst k = none)
    (hone : ∀ k q, prot.rate k = some (.finite q) → 1 ≤ q) {st : ProtectionState} {clock : Nat}
    {log : List ((Event × Nat) × Option Decision)} (h : clocked.Run (.new cfg Binary64.round) st clock log)
    (peer_ip : IpAddr) (info : PeekInfo) {now : Nat} (created : Nat)
    (hw : st.ip_table.lookup peer_ip.to_canonical = none ∨ Waited prot peer_ip.to_canonical log now) :
    (check_at st peer_ip info now created Binary64.round).1 ≠ .Block .RateLimited := by
  rw [ProtectionState.new, parse_precomputed hparse] at h
  obtain ⟨hcfg, -, hall⟩ := run_dated h
  rcases Protection.check_at_cases st peer_ip info now created Binary64.round with ⟨d, hd, he⟩ | ⟨-, id, st₁, hg, he⟩
  · rw [he]
    rintro rfl
    unfold Protection.static_check at hd
    split_ifs at hd <;> cases hd
  · rw [he, ← Protection.entryAt_eq hg, hcfg]
    have hfound : ∀ k q, prot.rate k = some (.finite q) →
        (entryAt st peer_ip.to_canonical created).bucket k =
          ⟨cfg.ceiling k, ((entryAt st peer_ip.to_canonical created).bucket k).last⟩ ∨
        (1 + 1 / 2 ^ 50) * (span k / q) ≤ (now : ℚ) - ((entryAt st peer_ip.to_canonical created).bucket k).last := by
      intro k q hq
      unfold entryAt
      cases hl : st.ip_table.lookup peer_ip.to_canonical with
      | none =>
        left
        rw [hcfg, Option.elim_none, Protection.bucket_new]
      | some old =>
        right
        rw [hl] at hw
        exact hw.resolve_left (by simp) _ (hall _ old hl k) k q hq
    generalize entryAt st peer_ip.to_canonical created = s at hfound
    have hfirst := consume_passes (parse_unburst hparse hburst .perSecond) (hone .perSecond) (hfound .perSecond)
    have hother := Protection.consume_other cfg (show Limit.sustained ≠ .perSecond by decide) now s Binary64.round
    have hsecond : (consume cfg .sustained now (consume cfg .perSecond now s Binary64.round).2 Binary64.round).1 = true :=
      consume_passes (parse_unburst hparse hburst .sustained) (hone .sustained)
        (hother.symm ▸ hfound .sustained)
    have hpasses := ip_check_passes hfirst hsecond
    cases ha : (ip_check cfg now s Binary64.round).1 with
    | none => nofun
    | some reason =>
      rw [ha] at hpasses
      rintro ⟨⟩
      exact hpasses rfl

/-- Connections a second, and no burst. -/
def perSecond (q : ℚ) : JsProtectionConfig := { rate_limit := some ⟨.finite q, none⟩ }

theorem parse_perSecond {D : Type} (C : Crates D) {q : ℚ} (hq : 0 < q) :
    parse_protection_config C (perSecond q) Binary64.round =
      .ok (ProtectionConfig.precompute { rate_limit_cps := some q } Binary64.round) := by
  have hrate : parse_rate_limit ⟨.finite q, none⟩ = .ok (q, none) := by
    simp only [parse_rate_limit, parse_rate, finite_number, hq, true_or, if_true]
    rfl
  simp only [parse_protection_config, perSecond, Option.mapM_some, hrate]
  rfl

/-- Two connections a second. A client's entry is created 5 ns after its check read the
clock; another client comes, the table is swept, and the first comes back after a second. -/
theorem unburst_passes_two : ∃ cfg st clock log,
    parse_protection_config Router.literalCrates (perSecond 2) Binary64.round = .ok cfg ∧
    clocked.Run (.new cfg Binary64.round) st clock log ∧ (st.ip_table.lookup (.V4 1)).isSome ∧
    (check_at st (.V4 1) .default 1000000000 1000000000 Binary64.round).1 ≠ .Block .RateLimited := by
  have hparse := parse_perSecond Router.literalCrates (show (0 : ℚ) < 2 by norm_num)
  have h₁ : clocked.Run (.new (ProtectionConfig.precompute { rate_limit_cps := some 2 } Binary64.round) Binary64.round)
    _ _ _ := .step (.check (.V4 1) .default 0, 5) .nil (Nat.zero_le _)
  have h₂ := h₁.step (.check (.V4 2) .default 10, 12) (by decide)
  have h₃ := h₂.step (.evict 20, 0) (by decide)
  refine ⟨_, _, _, _, hparse, h₃, by decide +kernel, ?_⟩
  have hburst : ∀ k, (perSecond 2).burst k = none := fun k => by cases k <;> rfl
  refine unburst_passes Router.literalCrates hparse hburst ?_ h₃ (.V4 1) .default 1000000000 (.inr ?_)
  · intro k q hq
    cases k with
    | perSecond =>
      cases hq
      norm_num
    | sustained => cases hq
  · rintro r ⟨x, hx, peer_ip, info, now, hcheck, hip, hr⟩ k q hq
    cases k with
    | sustained => cases hq
    | perSecond =>
      cases hq
      simp only [List.nil_append, List.cons_append, List.mem_cons, List.not_mem_nil, or_false] at hx
      rcases hx with rfl | rfl | rfl
      · cases hcheck
        rcases hr with rfl | rfl <;> norm_num [span]
      · cases hcheck
        exact absurd hip (by decide)
      · cases hcheck

/-- Half a connection a second is accepted, and blocks a client's first connection and
the one it makes a minute later. -/
theorem half_per_second_locks_out : ∃ cfg,
    parse_protection_config Router.literalCrates (perSecond (1 / 2)) Binary64.round = .ok cfg ∧
    (check_at (.new cfg Binary64.round) (.V4 1) .default 0 0 Binary64.round).1 = .Block .RateLimited ∧
    (check_at (check_at (.new cfg Binary64.round) (.V4 1) .default 0 0 Binary64.round).2 (.V4 1) .default 60000000000
      60000000000 Binary64.round).1 = .Block .RateLimited :=
  ⟨_, parse_perSecond _ (by norm_num), by decide +kernel, by decide +kernel⟩

end Symphony.Proxy
