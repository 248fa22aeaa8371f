import Symphony.Http.Head
import Symphony.Router.Resolve
import Symphony.Sni.Hello
/-!
# How a name is spelled

A client names a host in its ClientHello or in a Host header. The TLS listener looks
up the SNI without its trailing dots, the HTTP listener looks up the Host as it
stands, and neither folds case. So two spellings of one name are told apart by some
table unless what is looked up is the same byte string.
-/

namespace Symphony.Router

open Http (host_header header_field colon colon_append)
open Sni (Crypto extract_sni host_name normalize_sni trim_end_dots)

/-! ## The two lookups -/

/-- The route of a TLS connection whose peeked bytes are `hello` (`handle`); a failover
ingress has no default. -/
def tls_route {D : Type} (K : Crypto) (t : RouteTable D) (ingress : Bool) (hello : Bytes) : Option Route :=
  t.resolve_with (Sni.parse_client_hello K hello).sni !ingress

/-- The route of an ACME request with this head (`handle_http`, `proxy_acme`). -/
def acme_route {D : Type} (t : RouteTable D) (head : Bytes) : Option Route :=
  (host_header head).bind fun host => t.resolve_with (some host) false

/-! ## Spellings -/

/-- The hello carries `name` as its server name. -/
def HelloNames (hello name : Bytes) : Prop :=
  ((Sni.Parser.parse_client_hello hello).bind fun h => host_name h.extensions) = some name

/-- The request carries `name` as its Host, possibly with a port. -/
def HostNames (head name : Bytes) : Prop :=
  header_field head (bytes "host") = some name ∨
    ∃ port, (∀ b ∈ port, is_ascii_digit b = true) ∧ header_field head (bytes "host") = some (name ++ 58 :: port)

/-- A name as it can stand in both places: UTF-8 without controls, blanks and
delimiters, not made of dots only, and not too long for a host name. -/
structure Spelling (s : Bytes) : Prop where
  utf8 : utf8_ok s = true
  plain : ∀ b ∈ s, 32 < b ∧ b ≠ 58 ∧ b ≠ 47 ∧ b ≠ 91
  named : trim_end_dots s ≠ []
  fits : (trim_end_dots s).length ≤ 253

/-- The same name: equal up to letter case and trailing dots. -/
def SameName (a b : Bytes) : Prop :=
  (trim_end_dots a).map to_ascii_lowercase = (trim_end_dots b).map to_ascii_lowercase

/-! ## What is looked up -/

theorem Spelling.ne_nil {s : Bytes} (h : Spelling s) : s ≠ [] := by
  rintro rfl
  exact h.named rfl

theorem Spelling.not_mem {s : Bytes} (h : Spelling s) {c : UInt8} (hc : c ≤ 32 ∨ c = 58 ∨ c = 47 ∨ c = 91) : c ∉ s := by
  intro hm
  obtain ⟨h0, h1, h2, h3⟩ := h.plain c hm
  rcases hc with hc | hc | hc | hc
  · exact absurd (UInt8.lt_of_lt_of_le h0 hc) (UInt8.lt_irrefl _)
  · exact h1 hc
  · exact h2 hc
  · exact h3 hc

theorem trim_end_dots_append (s : Bytes) : ∃ n, s = trim_end_dots s ++ List.replicate n 46 := by
  refine ⟨(s.rtakeWhile (· == 46)).length, ?_⟩
  have hdots : s.rtakeWhile (· == 46) = List.replicate (s.rtakeWhile (· == 46)).length 46 := by
    rw [List.eq_replicate_iff]
    exact ⟨rfl, fun b hb => by simpa using List.mem_rtakeWhile_imp hb⟩
  rw [← hdots]
  exact (List.rdropWhile_append_rtakeWhile ..).symm

theorem trim_end_dots_idem (s : Bytes) : trim_end_dots (trim_end_dots s) = trim_end_dots s :=
  List.rdropWhile_idempotent _ s

theorem normalize_spelling {s : Bytes} (h : Spelling s) : normalize_sni s = some (trim_end_dots s) := by
  have hno {c : UInt8} (hc : c ∉ s) : (trim_end_dots s).contains c = false := by
    rw [List.contains_eq_mem, decide_eq_false_iff_not]
    exact fun hm => hc ((List.rdropWhile_prefix _ s).subset hm)
  have hlen : ¬ 253 < (trim_end_dots s).length := Nat.not_lt.2 h.fits
  have he : (trim_end_dots s).isEmpty = false := by simpa using h.named
  unfold normalize_sni from_utf8
  simp only [h.utf8, if_true, Option.bind_eq_bind, Option.bind_some, he, hlen, hno (h.not_mem (c := 58) (by simp)),
    hno (h.not_mem (c := 47) (by simp)), decide_false, Bool.or_self, Bool.false_eq_true, if_false]

/-- A TLS connection is routed by its name without trailing dots. -/
theorem tls_route_named {D : Type} (K : Crypto) (t : RouteTable D) (ingress : Bool) {hello name : Bytes}
    (h : HelloNames hello name) (hs : Spelling name) :
    tls_route K t ingress hello = t.resolve_with (some (trim_end_dots name)) !ingress := by
  obtain ⟨parsed, hp, hn⟩ := Option.bind_eq_some_iff.1 h
  have hsni : (Sni.parse_client_hello K hello).sni = some (trim_end_dots name) := by
    unfold Sni.parse_client_hello
    rw [hp]
    dsimp only
    unfold extract_sni
    rw [hn, Option.bind_some, normalize_spelling hs]
  unfold tls_route
  rw [hsni]

theorem host_header_named {head name : Bytes} (h : HostNames head name) (hs : Spelling name) :
    host_header head = some name := by
  -- what the header carries is the name and perhaps a port
  obtain ⟨rest, hrest, hfield⟩ : ∃ rest, (rest = [] ∨ ∃ port, (∀ b ∈ port, is_ascii_digit b = true) ∧
      rest = 58 :: port) ∧ header_field head (bytes "host") = some (name ++ rest) := by
    rcases h with h | ⟨port, hport, h⟩
    · exact ⟨[], .inl rfl, by rw [h, List.append_nil]⟩
    · exact ⟨58 :: port, .inr ⟨port, hport, rfl⟩, h⟩
  have hascii : ∀ b ∈ rest, b ≤ 0x7f ∧ b ≠ 13 ∧ b ≠ 10 ∧ b ≠ 0 := by
    rintro b hb
    rcases hrest with rfl | ⟨port, hport, rfl⟩
    · cases hb
    · rcases List.mem_cons.1 hb with rfl | hb
      · decide
      · have := hport b hb
        unfold is_ascii_digit at this
        grind
  have hutf8 : utf8_ok (name ++ rest) = true := by
    rw [utf8_ok_append hs.utf8]
    exact utf8_ok_ascii fun b hb => (hascii b hb).1
  have hsafe : ((name ++ rest).any fun b => b == 13 || b == 10 || b == 0) = false := by
    rw [List.any_eq_false]
    intro b hb
    rcases List.mem_append.1 hb with hb | hb
    · have := (hs.plain b hb).1
      grind
    · have := hascii b hb
      grind
  have hhead : ((name ++ rest).head? == some 91) = false := by
    obtain ⟨b, l, rfl⟩ := List.exists_cons_of_ne_nil hs.ne_nil
    simpa using (hs.plain b (by simp)).2.2.2
  have hne : name.isEmpty = false := by simpa using hs.ne_nil
  have hno : 58 ∉ name := hs.not_mem (.inr (.inl rfl))
  unfold host_header
  simp only [hfield, from_utf8, hutf8, hsafe, hhead, Option.bind_eq_bind, Option.bind_some, if_true,
    Bool.false_eq_true, if_false]
  rcases hrest with rfl | ⟨port, -, rfl⟩
  · have hcolon : colon name = none := by
      unfold colon
      rw [List.findIdx?_eq_none_iff]
      intro b hb
      simpa using fun e : b = 58 => hno (e ▸ hb)
    simp [hcolon, hne]
  · simp [colon_append hno, hs.ne_nil]

/-- An ACME request is routed by its Host as it stands. -/
theorem acme_route_named {D : Type} (t : RouteTable D) {head name : Bytes} (h : HostNames head name)
    (hs : Spelling name) : acme_route t head = t.resolve_with (some name) false := by
  unfold acme_route
  rw [host_header_named h hs, Option.bind_some]

/-! ## Spellings of one name -/

theorem SameName.trim_left {a b : Bytes} (h : SameName a b) : SameName (trim_end_dots a) b := by
  unfold SameName at h ⊢
  rw [trim_end_dots_idem, h]

theorem SameName.symm {a b : Bytes} (h : SameName a b) : SameName b a := Eq.symm h

theorem first_label_trim (s : Bytes) : (trim_end_dots s).takeWhile (· != 46) = s.takeWhile (· != 46) := by
  obtain ⟨n, hn⟩ := trim_end_dots_append s
  conv => rhs; rw [hn, List.takeWhile_append]
  split
  · rename_i h
    have : (List.replicate n (46 : UInt8)).takeWhile (· != 46) = [] := by cases n <;> simp [List.replicate_succ]
    rw [this, List.append_nil]
    exact (List.takeWhile_prefix _).eq_of_length h
  · rfl

/-- Spellings of one name have the same first label, up to case. -/
theorem SameName.first_label {a b : Bytes} (h : SameName a b) :
    (a.takeWhile (· != 46)).map to_ascii_lowercase = (b.takeWhile (· != 46)).map to_ascii_lowercase := by
  have hdot : (fun c => c != (46 : UInt8)) ∘ to_ascii_lowercase = fun c => c != 46 := by
    funext c
    have : to_ascii_lowercase c = 46 ↔ c = 46 := ⟨lowercase_fixed (by decide), by rintro rfl; rfl⟩
    rw [Bool.eq_iff_iff, Function.comp_apply, bne_iff_ne, bne_iff_ne, Ne, this]
  have hmap (s : Bytes) : (s.map to_ascii_lowercase).takeWhile (· != 46) =
      (s.takeWhile (· != 46)).map to_ascii_lowercase := by
    rw [List.takeWhile_map, hdot]
  rw [← first_label_trim a, ← first_label_trim b, ← hmap, ← hmap, h]

/-- A wildcard covers no other spelling of itself. -/
theorem covers_same_name {X b : Bytes} (h : SameName (42 :: 46 :: X) b) (hb : Covers X b) : b = 42 :: 46 :: X := by
  obtain ⟨label, -, hdot, rfl⟩ := hb
  have hall : ∀ c ∈ label, (c != 46) = true := by
    intro c hc
    simpa using fun e : c = 46 => hdot (e ▸ hc)
  have hl := h.first_label
  rw [List.takeWhile_append_of_pos hall] at hl
  have hX : (46 :: X).takeWhile (· != 46) = [] := by simp
  rw [hX, List.append_nil] at hl
  obtain ⟨c, rfl, hc⟩ := List.map_eq_singleton_iff.1 hl.symm
  rw [lowercase_fixed (by decide) hc]
  rfl

/-! ## A table that tells spellings apart -/

/-- The spec of one spelling decides no other. -/
theorem deciding_single {a b : Bytes} (ha : a ≠ []) (h : SameName a b) (allow_default : Bool) :
    deciding [plainSpec a] (some b) allow_default = if b = a then some 0 else none := by
  have hdef : (if allow_default then Lib.lastIdx? (fun spec : RouteSpec => spec.sni = []) [plainSpec a] else none) =
      none := by
    cases allow_default <;> simp [Lib.lastIdx?, plainSpec, ha]
  unfold deciding
  dsimp only
  rw [hdef, Option.or_none]
  cases hw : wildcard_suffix a with
  | some X =>
    obtain rfl := wildcard_suffix_eq_some.1 hw
    have hcov : Covers X b ↔ b = 42 :: 46 :: X := by
      constructor
      · exact covers_same_name h
      · rintro rfl
        exact ⟨[42], by simp, by decide, rfl⟩
    simp [Lib.lastIdx?, plainSpec, hw, hcov]
  | none =>
    by_cases hab : b = a
    · simp [Lib.lastIdx?, plainSpec, hw, hab]
    · have hba : a ≠ b := fun e => hab e.symm
      simp [Lib.lastIdx?, plainSpec, hw, hab, hba]

section Apart

variable {D : Type} [DecidableEq D] (C : Crates D) (conns : Nat → Bool) (listener_tls : ListenerTlsSpec)
  (previous : Option (RouteTable D)) (w : World D)

/-- Two spellings are looked up alike in every table exactly when they are the same bytes. -/
theorem resolve_alike_iff {a b : Bytes} (ha : a ≠ []) (hb : b ≠ []) (h : SameName a b) (allow_default : Bool) :
    (∀ specs, (build_route_table C conns listener_tls previous specs w).1.resolve_with (some a) allow_default =
      (build_route_table C conns listener_tls previous specs w).1.resolve_with (some b) allow_default) ↔ a = b := by
  constructor
  · intro hall
    by_contra hne
    -- a table with the one spelling serves it, and not the other
    have hr := hall [plainSpec a]
    rw [resolve_built _ _ _ _ _ _ (by simpa using ha), resolve_built _ _ _ _ _ _ (by simpa using hb),
      deciding_single ha rfl, deciding_single ha h, if_pos rfl, if_neg fun e => hne e.symm] at hr
    cases hr
  · rintro rfl specs
    rfl

/-- When route selection follows the name and when it follows the spelling. Two TLS
connections, two ACME requests, or one of each, that carry spellings of one name, get
the same route from every table exactly when what is looked up is the same: the SNI
without its trailing dots, and the Host as it stands. -/
theorem selection_by_spelling (K : Crypto) {a b : Bytes} (ha : Spelling a) (hb : Spelling b) (hab : SameName a b)
    {hello₁ hello₂ head₁ head₂ : Bytes} (h₁ : HelloNames hello₁ a) (h₂ : HelloNames hello₂ b)
    (g₁ : HostNames head₁ a) (g₂ : HostNames head₂ b) (ingress : Bool) :
    let table specs := (build_route_table C conns listener_tls previous specs w).1
    ((∀ specs, tls_route K (table specs) ingress hello₁ = tls_route K (table specs) ingress hello₂) ↔
      trim_end_dots a = trim_end_dots b) ∧
    ((∀ specs, acme_route (table specs) head₁ = acme_route (table specs) head₂) ↔ a = b) ∧
    ((∀ specs, tls_route K (table specs) true hello₁ = acme_route (table specs) head₂) ↔ trim_end_dots a = b) := by
  intro table
  have htls := resolve_alike_iff C conns listener_tls previous w ha.named hb.named hab.trim_left.symm.trim_left.symm
    (!ingress)
  have hacme := resolve_alike_iff C conns listener_tls previous w ha.ne_nil hb.ne_nil hab false
  have hboth := resolve_alike_iff C conns listener_tls previous w ha.named hb.ne_nil hab.trim_left false
  refine ⟨?_, ?_, ?_⟩
  · simpa only [tls_route_named K _ _ h₁ ha, tls_route_named K _ _ h₂ hb] using htls
  · simpa only [acme_route_named _ g₁ ha, acme_route_named _ g₂ hb] using hacme
  · simpa only [tls_route_named K _ _ h₁ ha, acme_route_named _ g₂ hb, Bool.not_true] using hboth

end Apart

/-- A ClientHello with this server name and nothing else. -/
def helloNaming (name : Bytes) : Bytes :=
  let extension := to_be16 0 ++ to_be16 (name.length + 5) ++ to_be16 (name.length + 3) ++
    0 :: to_be16 name.length ++ name
  let body := to_be16 0x0303 ++ List.replicate 32 0 ++ [0] ++ to_be16 2 ++ to_be16 0x1301 ++ [1, 0] ++
    to_be16 extension.length ++ extension
  [0x16] ++ to_be16 0x0301 ++ to_be16 (body.length + 4) ++ [1, 0] ++ to_be16 body.length ++ body

/-- An ACME request to this host. -/
def requestTo (host : Bytes) : Bytes :=
  bytes "GET /.well-known/acme-challenge/x HTTP/1.1\r\nHost: " ++ host ++ bytes "\r\n\r\n"

/-- A trailing dot: nothing to a TLS connection, another name to an ACME request. -/
theorem selection_by_spelling_dotted :
    let table specs := (build_route_table literalCrates (fun _ => false) {} none specs ⟨{}, {}⟩).1
    (∀ specs, tls_route Crypto.sums (table specs) false (helloNaming (bytes "www.example.com.")) =
      tls_route Crypto.sums (table specs) false (helloNaming (bytes "www.example.com"))) ∧
    ¬ (∀ specs, acme_route (table specs) (requestTo (bytes "www.example.com.")) =
      acme_route (table specs) (requestTo (bytes "www.example.com:80"))) ∧
    ∀ specs, tls_route Crypto.sums (table specs) true (helloNaming (bytes "www.example.com.")) =
      acme_route (table specs) (requestTo (bytes "www.example.com:80")) := by
  have dotted : Spelling (bytes "www.example.com.") :=
    ⟨by decide +kernel, by decide +kernel, by decide +kernel, by decide +kernel⟩
  have undotted : Spelling (bytes "www.example.com") :=
    ⟨by decide +kernel, by decide +kernel, by decide +kernel, by decide +kernel⟩
  have same : SameName (bytes "www.example.com.") (bytes "www.example.com") := by
    unfold SameName
    decide +kernel
  have hello₁ : HelloNames (helloNaming (bytes "www.example.com.")) (bytes "www.example.com.") := by
    unfold HelloNames
    decide +kernel
  have hello₂ : HelloNames (helloNaming (bytes "www.example.com")) (bytes "www.example.com") := by
    unfold HelloNames
    decide +kernel
  have head₁ : HostNames (requestTo (bytes "www.example.com.")) (bytes "www.example.com.") :=
    .inl (by decide +kernel)
  have head₂ : HostNames (requestTo (bytes "www.example.com:80")) (bytes "www.example.com") :=
    .inr ⟨bytes "80", by decide +kernel, by decide +kernel⟩
  obtain ⟨htls, hacme, hboth⟩ := selection_by_spelling literalCrates (fun _ => false) {} none ⟨{}, {}⟩ Crypto.sums
    dotted undotted same hello₁ hello₂ head₁ head₂ false
  exact ⟨htls.2 (by decide +kernel), fun h => absurd (hacme.1 h) (by decide +kernel), hboth.2 (by decide +kernel)⟩

/-- The exact spec is rejected. The name resolves to nothing, and in capitals it reaches
the wildcard; a Host with a trailing dot reaches nothing. -/
theorem selection_splits_spellings :
    let specs := [{ plainSpec (bytes "api.example.com") with allowed_sources := [bytes "10.0.0.0/99"] },
      plainSpec (bytes "*.example.com")]
    let t := (build_route_table literalCrates (fun _ => false) {} none specs ⟨{}, {}⟩).1
    SameName (bytes "api.example.com") (bytes "API.example.com") ∧
    tls_route Crypto.sums t false (helloNaming (bytes "api.example.com")) = none ∧
    (tls_route Crypto.sums t false (helloNaming (bytes "API.example.com"))).map (·.metric_identity.route) =
      some (bytes "*.example.com") ∧
    acme_route t (requestTo (bytes "api.example.com")) = none ∧
    (acme_route t (requestTo (bytes "API.example.com"))).map (·.metric_identity.route) = some (bytes "*.example.com") ∧
    acme_route t (requestTo (bytes "API.example.com.")) = none := by
  unfold SameName
  decide +kernel

end Symphony.Router
