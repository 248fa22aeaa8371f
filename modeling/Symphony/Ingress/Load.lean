import Symphony.Ingress.Header
import Symphony.Router.Table
/-!
# Load queries

A node asks each peer how loaded its routes are: the names go out in chunks, each chunk
as a LOCAL header with one TLV per name, and the peer answers with one line per name.
The asking side is `query_load`, the answering side `answer_load_query` over
`RouteTable::load_answer`, and between them the two codecs. What is kept from answer to
answer is only the position, so the chunks, the queries and the lines have to stay
aligned with the names.
-/

namespace Symphony

/-! ## The load of a route -/

namespace Router

/-- `LoadEwma::get`, of the word it published: the permille in the low 10 bits, above
them the ms until which it is current. -/
def LoadEwma.get (packed now : Nat) : Option (Nat × Nat) :=
  let until_ms := packed >>> 10
  if now / 1000000 < until_ms then some (packed &&& 0x3FF, until_ms) else none

/-- `route_load`; `published` has the word of each smoothed load. -/
def route_load (published : Nat → Nat) (destination : Destination) (destination_h2 : Option Destination) (now : Nat) :
    Option (Nat × Nat) := do
  let load : Destination → Option (Nat × Nat)
    | .UdsSet _ balancer => LoadEwma.get (published balancer.load) now
    | .Tcp _ => none
  let (permille, until_ms) ← load destination
  match destination_h2 with
  | none => return (permille, until_ms)
  | some h2 =>
    let (h2_permille, h2_until_ms) ← load h2
    return (max permille h2_permille, min until_ms h2_until_ms)

/-- `RouteTable::load_answer`: only the exact route of a name, while it is up, not
draining and measurable. -/
def RouteTable.load_answer {D : Type} (t : RouteTable D) (h : Heap) (published : Nat → Nat) (name : Bytes) (now : Nat) :
    Option Nat := do
  let route ← (t.exact.lookup name).filter (!·.suspended)
  if route.failover.any fun f => f.drain || f.locally_down h route.destination route.destination_h2 then none
  else (route_load published route.destination route.destination_h2 now).map (·.1)

end Router

namespace Ingress

open Lib (Incoming)
open Failover (Duration)
open Router (RouteTable Heap)
open Sni (decimal)

/-! ## Queries -/

def load_query_chunks (names : List Bytes) : List (List Bytes) :=
  if names = [] then [] else names.take MAX_QUERY_NAMES :: load_query_chunks (names.drop MAX_QUERY_NAMES)
  termination_by names.length
  decreasing_by
    have := List.length_pos_iff.2 ‹names ≠ []›
    simp only [List.length_drop, MAX_QUERY_NAMES]
    omega

/-- One entry of a query; a name longer than a DNS name is sent empty. -/
def query_tlv (name : Bytes) : Bytes :=
  let name := if name.length ≤ MAX_NAME_LEN then name else []
  LOAD_QUERY_TLV :: to_be16 name.length ++ name

def encode_load_query (names : List Bytes) : Bytes :=
  let tlvs := names.flatMap query_tlv
  SIGNATURE ++ [0x20, 0x00] ++ to_be16 tlvs.length ++ tlvs

/-! ## Answers -/

def LOAD_ANSWER_MAGIC : Bytes := bytes "SYMPHONY-LOAD/1\n"

def answer_line : Option Nat → Bytes
  | some permille => decimal (min permille 1000) ++ bytes "\n"
  | none => bytes "-\n"

def encode_load_answer (loads : List (Option Nat)) : Bytes := LOAD_ANSWER_MAGIC ++ loads.flatMap answer_line

def max_load_answer_len (names : Nat) : Nat := LOAD_ANSWER_MAGIC.length + names * (bytes "1000\n").length

def parse_line (line : Bytes) : Option (Option Nat) :=
  if line = bytes "-" then some none
  else if 1 ≤ line.length ∧ line.length ≤ 4 ∧ line.all is_ascii_digit then
    ((from_str_radix 10 U32_MAX line).filter (· ≤ 1000)).map some
  else none

/-- The lines of the body; a last line feed ends its line. -/
def answer_lines (body : Bytes) : List Bytes :=
  let body := if body.getLast? = some 10 then body.dropLast else body
  if body = [] then [] else split_on 10 body

def parse_load_answer (answer : Bytes) (expected : Nat) : Option (List (Option Nat)) :=
  if answer.length > max_load_answer_len expected then none
  else if !LOAD_ANSWER_MAGIC.isPrefixOf answer then none
  else do
    let body ← from_utf8 (answer.drop LOAD_ANSWER_MAGIC.length)
    let lines := answer_lines body
    if lines.length ≠ expected ∨ answer.getLast? ≠ some 10 then none else lines.mapM parse_line

/-! ## The answering node -/

/-- What a node answers from: its live table, its health cells and smoothed loads, its
clock, and the time it allows for a header. -/
structure Answering (D : Type) where
  table : RouteTable D
  heap : Heap
  published : Nat → Nat
  now : Nat
  limit : Duration

variable {loads : List (Option Nat)} {names : List Bytes}

namespace Answering

variable {D : Type} (node : Answering D)

def load_answer (name : Bytes) : Option Nat := node.table.load_answer node.heap node.published name node.now

/-- What `answer_load_query` writes. -/
def answer_load_query (names : List (Option Bytes)) : Bytes :=
  encode_load_answer (names.map fun name => name.bind node.load_answer)

/-- What a trusted peer's connection is sent, if it asks for loads; any other header is
not answered. -/
def serve (s : Incoming UInt8) : Bytes :=
  match read_proxy_v2 node.limit s with
  | .ok (.LoadQuery names, _) => node.answer_load_query names
  | _ => []

end Answering

/-! ## The asking node -/

/-- What one connection to the peer came to, within the probe timeout: how long the
connect took, all that was received until the peer closed, and the ms it then was. -/
structure Reply where
  connect : Duration
  received : Bytes
  at_ms : Nat
  deriving DecidableEq, Repr

structure LoadAnswer where
  rtt : Duration
  loads : List (Option (Option Nat × Nat))
  deriving DecidableEq, Repr

/-- The attempt of one chunk; `exchange` is the connection, of the bytes written on it. -/
def attempt (exchange : Bytes → Option Reply) (chunk : List Bytes) : Option (Duration × List (Option Nat) × Nat) := do
  let reply ← exchange (encode_load_query chunk)
  let loads ← parse_load_answer (reply.received.take (max_load_answer_len chunk.length + 1)) chunk.length
  return (reply.connect, loads, reply.at_ms)

/-- The loop of `query_load`; `exchange k` is the `k`-th connection. -/
def query_chunks (exchange : Nat → Bytes → Option Reply) (k : Nat) (rtt : Option Duration)
    (loads : List (Option (Option Nat × Nat))) : List (List Bytes) → Option Duration × List (Option (Option Nat × Nat))
  | [] => (rtt, loads)
  | chunk :: chunks =>
    match attempt (exchange k) chunk with
    | none => (rtt, loads)
    | some (connect, chunk_loads, at_ms) =>
      query_chunks exchange (k + 1) (rtt.or (some connect)) (loads ++ chunk_loads.map fun load =>
        some (load, at_ms)) chunks

/-- `Vec::resize`, with absent loads. -/
def resize (loads : List (Option (Option Nat × Nat))) (n : Nat) : List (Option (Option Nat × Nat)) :=
  loads.take n ++ List.replicate (n - loads.length) none

def query_load (exchange : Nat → Bytes → Option Reply) (names : List Bytes) : Option LoadAnswer :=
  let r := query_chunks exchange 0 none [] (load_query_chunks names)
  r.1.map fun rtt => ⟨rtt, resize r.2 names.length⟩

/-! ## Queries are read as they were asked -/

/-- A name as the peer gets it: none if it is empty or longer than a DNS name. -/
def asked (name : Bytes) : Option Bytes := if 1 ≤ name.length ∧ name.length ≤ MAX_NAME_LEN then some name else none

theorem load_query_chunks_cons (h : names ≠ []) :
    load_query_chunks names = names.take MAX_QUERY_NAMES :: load_query_chunks (names.drop MAX_QUERY_NAMES) := by
  rw [load_query_chunks, if_neg h]

/-- The chunks are not empty and fit a query, and hold only names that were asked for. -/
theorem mem_load_query_chunks {chunk : List Bytes} (h : chunk ∈ load_query_chunks names) :
    chunk ≠ [] ∧ chunk.length ≤ MAX_QUERY_NAMES ∧ ∀ name ∈ chunk, name ∈ names := by
  induction names using load_query_chunks.induct with
  | case1 =>
    rw [load_query_chunks, if_pos rfl] at h
    cases h
  | case2 names hne ih =>
    rw [load_query_chunks_cons hne] at h
    rcases List.mem_cons.1 h with rfl | h
    · refine ⟨?_, List.length_take_le .., fun name => List.mem_of_mem_take⟩
      simp [List.take_eq_nil_iff, MAX_QUERY_NAMES, hne]
    · obtain ⟨hchunk, hlen, hsub⟩ := ih h
      exact ⟨hchunk, hlen, fun name hn => List.mem_of_mem_drop (hsub name hn)⟩

theorem query_tlv_cases {name : Bytes} (hutf8 : utf8_ok name = true) :
    ∃ value : Bytes,
      query_tlv name = LOAD_QUERY_TLV :: UInt8.ofNat (value.length / 256) :: UInt8.ofNat value.length :: value ∧
      value.length ≤ MAX_NAME_LEN ∧ valid_name value = asked name := by
  unfold query_tlv asked
  by_cases hlen : name.length ≤ MAX_NAME_LEN
  · refine ⟨name, by simp only [hlen, if_true]; rfl, hlen, ?_⟩
    simp only [valid_name, from_utf8, hutf8, if_true]
  · refine ⟨[], by simp only [hlen, if_false]; rfl, Nat.zero_le _, ?_⟩
    simp [valid_name, hlen]

theorem query_names_chunk {chunk : List Bytes} (hutf8 : ∀ name ∈ chunk, utf8_ok name = true)
    {names : List (Option Bytes)} (hlen : names.length + chunk.length ≤ MAX_QUERY_NAMES) :
    query_names names (chunk.flatMap query_tlv) = .ok (names ++ chunk.map asked) := by
  induction chunk generalizing names with
  | nil => simp [query_names]
  | cons name chunk ih =>
    obtain ⟨value, htlv, hvalue, hvalid⟩ := query_tlv_cases (hutf8 name List.mem_cons_self)
    rw [List.length_cons] at hlen
    have hbe : be16 (UInt8.ofNat (value.length / 256)) (UInt8.ofNat value.length) = value.length :=
      be16_to_be16 (Nat.lt_of_le_of_lt hvalue (by decide))
    have hroom : ¬ names.length = MAX_QUERY_NAMES := by omega
    have hshort : ¬ (value ++ chunk.flatMap query_tlv).length < value.length := by simp
    rw [List.flatMap_cons, htlv, List.cons_append, List.cons_append, List.cons_append, query_names]
    simp only [hbe, hshort, hroom, if_false, if_true, List.take_left', List.drop_left', hvalid]
    rw [ih (fun name hn => hutf8 name (List.mem_cons_of_mem _ hn)) (by simp; omega)]
    simp

theorem length_query_tlvs (chunk : List Bytes) :
    (chunk.flatMap query_tlv).length ≤ chunk.length * (3 + MAX_NAME_LEN) := by
  induction chunk with
  | nil => simp
  | cons name chunk ih =>
    have htlv : (query_tlv name).length ≤ 3 + MAX_NAME_LEN := by
      unfold query_tlv
      simp only [to_be16, List.cons_append, List.nil_append, List.length_cons]
      split
      · omega
      · simp [MAX_NAME_LEN]
    rw [List.flatMap_cons, List.length_append, List.length_cons, Nat.succ_mul]
    omega

theorem query_fits {chunk : List Bytes} (hlen : chunk.length ≤ MAX_QUERY_NAMES) :
    (chunk.flatMap query_tlv).length ≤ MAX_LOCAL_PAYLOAD :=
  (length_query_tlvs chunk).trans (Nat.mul_le_mul_right _ hlen)

theorem encode_load_query_eq (chunk : List Bytes) :
    encode_load_query chunk = fixed_part 0x20 0x00 (chunk.flatMap query_tlv).length ++ chunk.flatMap query_tlv := by
  simp [encode_load_query, fixed_part]

section Query

variable {limit : Duration} {chunk : List Bytes} {s : Incoming UInt8}

theorem read_query {rest : Incoming UInt8} (hchunk : chunk ≠ []) (hlen : chunk.length ≤ MAX_QUERY_NAMES)
    (hutf8 : ∀ name ∈ chunk, utf8_ok name = true) (hs : Incoming.Begins limit (encode_load_query chunk) s rest) :
    read_proxy_v2 limit s = .ok (.LoadQuery (chunk.map asked), rest) := by
  rw [encode_load_query_eq] at hs
  obtain ⟨mid, hfixed, hpayload⟩ := hs.split
  have hread := read_exact_begins hfixed
  rw [fixed_part_length] at hread
  have hnames : parse_load_query 0x00 (chunk.flatMap query_tlv) = .ok (chunk.map asked) := by
    have hq : query_names [] (chunk.flatMap query_tlv) = .ok ([] ++ chunk.map asked) :=
      query_names_chunk hutf8 (by simpa using hlen)
    simp only [parse_load_query, address_len, if_true, List.drop_zero, hq, List.nil_append]
    cases chunk with
    | nil => exact absurd rfl hchunk
    | cons name chunk => rfl
  unfold read_proxy_v2
  rw [hread]
  dsimp only
  rw [parse_fixed_local (query_fits hlen)]
  dsimp only
  rw [read_exact_begins hpayload, fixed_part_family]
  dsimp only
  rw [hnames]
  rfl

/-- A peer that accepts what arrived of a query has received all of it in time. -/
theorem read_whole_query (hlen : chunk.length ≤ MAX_QUERY_NAMES)
    (hs : s.arriving.map (·.2) <+: encode_load_query chunk) {r : Header × Incoming UInt8}
    (hr : read_proxy_v2 limit s = .ok r) : ∃ rest, Incoming.Begins limit (encode_load_query chunk) s rest := by
  unfold read_proxy_v2 at hr
  rw [encode_load_query_eq] at hs ⊢
  split at hr
  · cases hr
  · next fixed mid hread =>
    obtain ⟨hfixed, hlen16⟩ := begins_of_read_exact hread
    rw [hfixed.items] at hs
    have heq : fixed = fixed_part 0x20 0x00 (chunk.flatMap query_tlv).length := by
      have hpre := List.prefix_of_prefix_length_le ((List.prefix_append _ _).trans hs)
        (List.prefix_append _ _) hlen16.le
      exact hpre.eq_of_length hlen16
    subst heq
    rw [List.prefix_append_right_inj] at hs
    rw [parse_fixed_local (query_fits hlen)] at hr
    dsimp only at hr
    split at hr
    · cases hr
    · next payload rest hread =>
      obtain ⟨hpayload, hlen'⟩ := begins_of_read_exact hread
      rw [hpayload.items] at hs
      have heq := ((List.prefix_append _ _).trans hs).eq_of_length hlen'
      subst heq
      exact ⟨rest, hfixed.append hpayload⟩

end Query

/-! ## Answers are read as they were written -/

theorem decimal_eq (n : Nat) :
    decimal n = (if n < 10 then [] else decimal (n / 10)) ++ [UInt8.ofNat (48 + n % 10)] := by
  have hdigit : ∀ d < 10, UInt8.ofNat (Nat.digitChar d).toNat = UInt8.ofNat (48 + d) := by decide
  unfold decimal
  rw [Nat.toDigits_eq_if (by decide)]
  split
  · next h => simp [hdigit n h, Nat.mod_eq_of_lt h]
  · simp [hdigit (n % 10) (Nat.mod_lt _ (by decide))]

theorem digit_byte (n : Nat) : is_ascii_digit (UInt8.ofNat (48 + n % 10)) = true ∧
    to_digit 10 (UInt8.ofNat (48 + n % 10)) = some (n % 10) := by
  have hdigit : ∀ d < 10, is_ascii_digit (UInt8.ofNat (48 + d)) = true ∧ to_digit 10 (UInt8.ofNat (48 + d)) =
    some d := by
    decide
  exact hdigit _ (Nat.mod_lt _ (by decide))

theorem decimal_digits (n : Nat) : ∀ b ∈ decimal n, is_ascii_digit b = true := by
  induction n using Nat.strong_induction_on with
  | _ n ih =>
    intro b hb
    rw [decimal_eq] at hb
    rcases List.mem_append.1 hb with hb | hb
    · split at hb
      · cases hb
      · exact ih (n / 10) (by omega) b hb
    · rw [List.mem_singleton.1 hb]
      exact (digit_byte n).1

theorem parse_digits_decimal {top : Nat} (n : Nat) (h : n ≤ top) (t : Bytes) :
    parse_digits 10 top 0 (decimal n ++ t) = parse_digits 10 top n t := by
  induction n using Nat.strong_induction_on generalizing t with
  | _ n ih =>
    rw [decimal_eq]
    split
    · next hn =>
      rw [List.nil_append, List.singleton_append, parse_digits, (digit_byte n).2]
      simp only [Nat.mod_eq_of_lt hn, Nat.zero_mul, Nat.zero_add, h, if_true]
    · next hn =>
      have hdigits : n / 10 * 10 + n % 10 = n := Nat.div_add_mod' n 10
      rw [List.append_assoc, ih (n / 10) (by omega) (by omega), List.singleton_append, parse_digits, (digit_byte n).2]
      simp only [hdigits, h, if_true]

theorem length_decimal {n : Nat} (h : n ≤ 1000) : 1 ≤ (decimal n).length ∧ (decimal n).length ≤ 4 := by
  have hlen (n : Nat) : (decimal n).length = (if n < 10 then 0 else (decimal (n / 10)).length) + 1 := by
    rw [decimal_eq]
    split <;> simp
  have hshort (n : Nat) (hn : n < 10) : (decimal n).length = 1 := by
    rw [hlen, if_pos hn]
  -- four digits at most: after three divisions one is left
  have h₃ := hshort (n / 10 / 10 / 10) (by omega)
  have h₂ := hlen (n / 10 / 10)
  have h₁ := hlen (n / 10)
  have h₀ := hlen n
  split at h₀ <;> split at h₁ <;> split at h₂ <;> omega

/-- A number of decimal digits is not read as one with a sign. -/
theorem from_str_radix_decimal {top n : Nat} (h : n ≤ top) : from_str_radix 10 top (decimal n) = some n := by
  have hparse : parse_digits 10 top 0 (decimal n) = some n := by
    have := parse_digits_decimal n h []
    rwa [List.append_nil] at this
  have hdigits := decimal_digits n
  unfold from_str_radix
  split
  · next hnil =>
    rw [decimal_eq] at hnil
    exact absurd hnil (List.append_ne_nil_of_right_ne_nil _ (List.cons_ne_nil _ _))
  · next hplus =>
    rw [hplus] at hdigits
    exact absurd (hdigits 43 (by simp)) (by decide)
  · next hplus =>
    rw [hplus] at hdigits
    exact absurd (hdigits 43 (by simp)) (by decide)
  · exact hparse

/-- A line without its line feed. -/
def answer_text : Option Nat → Bytes
  | some permille => decimal (min permille 1000)
  | none => bytes "-"

theorem answer_line_eq (load : Option Nat) : answer_line load = answer_text load ++ [10] := by
  cases load <;> rfl

theorem answer_text_spec (load : Option Nat) :
    (∀ b ∈ answer_text load, b ≤ 0x7f ∧ b ≠ 10) ∧ (1 ≤ (answer_text load).length ∧ (answer_text load).length ≤ 4) ∧
      parse_line (answer_text load) = some (load.map (min · 1000)) := by
  cases load with
  | none => exact ⟨by decide +kernel, by decide +kernel, by decide +kernel⟩
  | some permille =>
    have hmax : min permille 1000 ≤ 1000 := Nat.min_le_right _ _
    have hascii : ∀ b, is_ascii_digit b = true → b ≤ 0x7f ∧ b ≠ 10 := by
      intro b hb
      simp only [is_ascii_digit, Bool.and_eq_true, decide_eq_true_eq, UInt8.le_iff_toNat_le] at hb
      refine ⟨UInt8.le_iff_toNat_le.2 (Nat.le_trans hb.2 (by decide)), ?_⟩
      rintro rfl
      exact absurd hb.1 (by decide)
    have hdigits := decimal_digits (min permille 1000)
    have hdash : ¬ decimal (min permille 1000) = bytes "-" := by
      intro h
      rw [h] at hdigits
      exact absurd (hdigits 45 (by decide)) (by decide)
    refine ⟨fun b hb => hascii b (hdigits b hb), length_decimal hmax, ?_⟩
    have hread : from_str_radix 10 U32_MAX (decimal (min permille 1000)) = some (min permille 1000) :=
      from_str_radix_decimal (hmax.trans (by decide))
    unfold parse_line answer_text
    rw [if_neg hdash, if_pos ⟨(length_decimal hmax).1, (length_decimal hmax).2, List.all_eq_true.2 hdigits⟩, hread,
      Option.filter_some, if_pos (decide_eq_true hmax)]
    rfl

/-! ### The lines of an answer -/

theorem body_ne_nil (h : loads ≠ []) : loads.flatMap answer_line ≠ [] := by
  cases loads with
  | nil => exact absurd rfl h
  | cons load loads => simp [answer_line_eq]

theorem body_getLast (h : loads ≠ []) : (loads.flatMap answer_line).getLast? = some 10 := by
  induction loads with
  | nil => exact absurd rfl h
  | cons load loads ih =>
    rw [List.flatMap_cons, List.getLast?_append]
    cases loads with
    | nil => simp [answer_line_eq]
    | cons load' loads => rw [ih (List.cons_ne_nil _ _), Option.some_or]

theorem split_body (h : loads ≠ []) :
    split_on 10 (loads.flatMap answer_line).dropLast = loads.map answer_text := by
  induction loads with
  | nil => exact absurd rfl h
  | cons load loads ih =>
    have hfree : (10 : UInt8) ∉ answer_text load := fun hmem => ((answer_text_spec load).1 10 hmem).2 rfl
    cases loads with
    | nil => simp [answer_line_eq, split_on_free hfree]
    | cons load' loads =>
      have hrest := body_ne_nil (List.cons_ne_nil load' loads)
      rw [List.flatMap_cons, List.dropLast_append_of_ne_nil hrest, answer_line_eq, List.append_assoc,
        List.singleton_append, split_on_append, split_on_free hfree, ih (List.cons_ne_nil _ _)]
      rfl

theorem count_body (loads : List (Option Nat)) : (loads.flatMap answer_line).count 10 = loads.length := by
  induction loads with
  | nil => rfl
  | cons load loads ih =>
    have hfree : (answer_text load).count 10 = 0 :=
      List.count_eq_zero.2 fun hmem => ((answer_text_spec load).1 10 hmem).2 rfl
    rw [List.flatMap_cons, answer_line_eq, List.count_append, List.count_append, hfree, ih, List.length_cons,
      List.count_singleton_self]
    omega

theorem answer_lines_body (loads : List (Option Nat)) :
    answer_lines (loads.flatMap answer_line) = loads.map answer_text := by
  unfold answer_lines
  by_cases h : loads = []
  · subst h
    rfl
  · simp only [body_getLast h, if_true]
    rw [split_body h]
    split
    · next hnil =>
      -- an empty body is that of one line, and no line is empty
      have hsplit := split_body h
      rw [hnil] at hsplit
      cases loads with
      | nil => rfl
      | cons load loads =>
        have hlen := (answer_text_spec load).2.1.1
        rw [List.map_cons, split_on] at hsplit
        rw [← (List.cons.inj hsplit).1] at hlen
        exact absurd hlen (by decide)
    · rfl

theorem parse_lines (loads : List (Option Nat)) :
    (loads.map answer_text).mapM parse_line = some (loads.map (·.map (min · 1000))) := by
  induction loads with
  | nil => rfl
  | cons load loads ih => simp [ih, (answer_text_spec load).2.2]

theorem answer_ascii (loads : List (Option Nat)) : ∀ b ∈ loads.flatMap answer_line, b ≤ 0x7f := by
  intro b hb
  obtain ⟨load, -, hb⟩ := List.mem_flatMap.1 hb
  rw [answer_line_eq] at hb
  rcases List.mem_append.1 hb with hb | hb
  · exact ((answer_text_spec load).1 b hb).1
  · rw [List.mem_singleton.1 hb]
    decide

theorem length_encode_load_answer (loads : List (Option Nat)) :
    (encode_load_answer loads).length ≤ max_load_answer_len loads.length := by
  have hbody : (loads.flatMap answer_line).length ≤ loads.length * 5 := by
    induction loads with
    | nil => simp
    | cons load loads ih =>
      have htext := (answer_text_spec load).2.1.2
      rw [List.flatMap_cons, answer_line_eq, List.length_append, List.length_append, List.length_singleton,
        List.length_cons, Nat.succ_mul]
      omega
  rw [encode_load_answer, List.length_append, max_load_answer_len]
  exact Nat.add_le_add_left hbody _

theorem parse_encode_load_answer (loads : List (Option Nat)) :
    parse_load_answer (encode_load_answer loads) loads.length = some (loads.map (·.map (min · 1000))) := by
  have hpre : LOAD_ANSWER_MAGIC.isPrefixOf (encode_load_answer loads) = true :=
    List.isPrefixOf_iff_prefix.2 (List.prefix_append _ _)
  have hdrop : (encode_load_answer loads).drop LOAD_ANSWER_MAGIC.length = loads.flatMap answer_line := List.drop_left
  have hlast : (encode_load_answer loads).getLast? = some 10 := by
    rw [encode_load_answer, List.getLast?_append]
    by_cases h : loads = []
    · subst h
      decide
    · rw [body_getLast h, Option.some_or]
  have hutf8 : from_utf8 (loads.flatMap answer_line) = some (loads.flatMap answer_line) :=
    if_pos (utf8_ok_ascii (answer_ascii loads))
  unfold parse_load_answer
  rw [if_neg (Nat.not_lt.2 (length_encode_load_answer loads)), hpre, hdrop, hutf8]
  simp only [answer_lines_body, hlast, Option.bind_eq_bind, Option.bind_some, List.length_map, Bool.not_true,
    Bool.false_eq_true, ne_eq, not_true_eq_false, or_self, if_false]
  exact parse_lines loads

theorem length_answer_lines {body : Bytes} (hlast : body.getLast? = some 10) :
    (answer_lines body).length = body.count 10 ∨ answer_lines body = [] := by
  unfold answer_lines
  simp only [hlast, if_true]
  split
  · exact .inr rfl
  · left
    obtain ⟨init, rfl⟩ := List.getLast?_eq_some_iff.1 hlast
    rw [length_split_on, List.dropLast_concat, List.count_append, List.count_singleton_self]

/-- An answer that was cut short is not read. -/
theorem parse_load_answer_whole (h : loads ≠ []) {received : Bytes} (hpre : received <+: encode_load_answer loads)
    {r : List (Option Nat)} (hr : parse_load_answer received loads.length = some r) :
    received = encode_load_answer loads := by
  unfold parse_load_answer at hr
  split at hr
  · cases hr
  split at hr
  · cases hr
  next hmagic =>
  have hmagic : LOAD_ANSWER_MAGIC <+: received := by simpa using hmagic
  obtain ⟨body, rfl⟩ := hmagic
  obtain ⟨rest, hrest⟩ := (List.prefix_append_right_inj _).1 hpre
  simp only [List.drop_left, Option.bind_eq_bind, Option.bind_eq_some_iff] at hr
  obtain ⟨body', hutf8, hr⟩ := hr
  split at hr
  · cases hr
  next hlines =>
  have hbody' : body' = body := by
    unfold from_utf8 at hutf8
    split at hutf8 <;> cases hutf8
    rfl
  subst hbody'
  rw [not_or, not_not, not_not] at hlines
  obtain ⟨hcount, hlast⟩ := hlines
  have hsome : answer_lines body' ≠ [] := by
    intro hnil
    rw [hnil] at hcount
    exact h (List.eq_nil_of_length_eq_zero hcount.symm)
  have hlast' : body'.getLast? = some 10 := by
    rw [List.getLast?_append] at hlast
    cases hb : body'.getLast? with
    | none =>
      rw [List.getLast?_eq_none_iff.1 hb] at hsome
      exact absurd rfl hsome
    | some b => rwa [hb] at hlast
  -- as many line feeds as lines were asked for, so none is left in what is missing
  have hlf : rest.count 10 = 0 := by
    have hall := count_body loads
    rw [← hrest, List.count_append, ← hcount, (length_answer_lines hlast').resolve_right hsome] at hall
    omega
  have hnil : rest = [] := by
    by_contra hne
    have hend := body_getLast h
    rw [← hrest, List.getLast?_append, List.getLast?_eq_some_getLast hne, Option.some_or] at hend
    exact List.count_eq_zero.1 hlf (Option.some.inj hend ▸ List.getLast_mem hne)
  rw [encode_load_answer, ← hrest, hnil, List.append_nil]

/-! ## Answers stay with their names -/

/-- What the peer has to say about a name: nothing for one that cannot be asked about. -/
def Answering.available {D : Type} (node : Answering D) (name : Bytes) : Option Nat :=
  ((asked name).bind node.load_answer).map (min · 1000)

/-- Every connection that is made reaches the peer: what it receives is the beginning of
what the peer sends, on the beginning of the query that arrives there. -/
def Reaches {D : Type} (exchange : Nat → Bytes → Option Reply) (nodes : Nat → Answering D) : Prop :=
  ∀ k query reply, exchange k query = some reply →
    ∃ s : Incoming UInt8, s.arriving.map (·.2) <+: query ∧ reply.received <+: (nodes k).serve s

/-- How many chunks are answered before one fails. -/
def succeeded (exchange : Nat → Bytes → Option Reply) : Nat → List (List Bytes) → Nat
  | _, [] => 0
  | k, chunk :: chunks => if (attempt (exchange k) chunk).isSome then succeeded exchange (k + 1) chunks + 1 else 0

section Asking

variable {D : Type} {exchange : Nat → Bytes → Option Reply} {nodes : Nat → Answering D}

/-- What can be parsed of the peer's answer is its answer to a whole query. -/
theorem serve_parsed {node : Answering D} {chunk : List Bytes} (hchunk : chunk ≠ [])
    (hlen : chunk.length ≤ MAX_QUERY_NAMES) (hutf8 : ∀ name ∈ chunk, utf8_ok name = true) {s : Incoming UInt8}
    (hs : s.arriving.map (·.2) <+: encode_load_query chunk) {received : Bytes} (hpre : received <+: node.serve s)
    (hparse : parse_load_answer received chunk.length = some loads) :
    loads = chunk.map node.available := by
  -- a node that does not accept the query sends nothing, and nothing is not an answer
  have hempty (h : node.serve s = []) : loads = chunk.map node.available := by
    rw [h, List.prefix_nil] at hpre
    subst hpre
    cases hparse
  cases hread : read_proxy_v2 node.limit s with
  | error e =>
    apply hempty
    rw [Answering.serve, hread]
  | ok r =>
    obtain ⟨rest, hbegins⟩ := read_whole_query hlen hs hread
    have hserve : node.serve s = encode_load_answer (chunk.map fun name => (asked name).bind node.load_answer) := by
      rw [Answering.serve, read_query hchunk hlen hutf8 hbegins]
      simp only [Answering.answer_load_query, List.map_map]
      rfl
    rw [hserve] at hpre
    have hcount : (chunk.map fun name => (asked name).bind node.load_answer).length = chunk.length := List.length_map ..
    rw [← hcount] at hparse
    rw [parse_load_answer_whole (by simpa using hchunk) hpre hparse, parse_encode_load_answer, List.map_map] at hparse
    exact (Option.some.inj hparse).symm

theorem attempt_available (hx : Reaches exchange nodes) {k : Nat} {chunk : List Bytes} (hchunk : chunk ≠ [])
    (hlen : chunk.length ≤ MAX_QUERY_NAMES) (hutf8 : ∀ name ∈ chunk, utf8_ok name = true)
    {r : Duration × List (Option Nat) × Nat} (h : attempt (exchange k) chunk = some r) :
    r.2.1 = chunk.map (nodes k).available := by
  unfold attempt at h
  simp only [Option.bind_eq_bind, Option.bind_eq_some_iff] at h
  obtain ⟨reply, hreply, loads, hparse, hr⟩ := h
  cases hr
  obtain ⟨s, hs, hpre⟩ := hx k _ reply hreply
  exact serve_parsed hchunk hlen hutf8 hs ((List.take_prefix _ _).trans hpre) hparse

theorem query_chunks_loads (hx : Reaches exchange nodes) (hutf8 : ∀ name ∈ names, utf8_ok name = true) (k : Nat)
    (rtt : Option Duration) (loads : List (Option (Option Nat × Nat))) :
    ∃ new, (query_chunks exchange k rtt loads (load_query_chunks names)).2 = loads ++ new ∧
      new.length = min (MAX_QUERY_NAMES * succeeded exchange k (load_query_chunks names)) names.length ∧
      (∀ i name, i < MAX_QUERY_NAMES * succeeded exchange k (load_query_chunks names) → names[i]? = some name →
        ∃ at_ms, new[i]? = some (some ((nodes (k + i / MAX_QUERY_NAMES)).available name, at_ms))) ∧
      ((query_chunks exchange k rtt loads (load_query_chunks names)).1 = none ↔
        rtt = none ∧ succeeded exchange k (load_query_chunks names) = 0) := by
  induction names using load_query_chunks.induct generalizing k rtt loads with
  | case1 =>
    rw [load_query_chunks, if_pos rfl]
    exact ⟨[], by simp [query_chunks], by simp [succeeded], by simp [succeeded], by simp [query_chunks, succeeded]⟩
  | case2 names hne ih =>
    have hchunk : names.take MAX_QUERY_NAMES ∈ load_query_chunks names := by
      rw [load_query_chunks_cons hne]
      exact List.mem_cons_self
    obtain ⟨hchunk, hlen, hsub⟩ := mem_load_query_chunks hchunk
    rw [load_query_chunks_cons hne, query_chunks, succeeded]
    cases hr : attempt (exchange k) (names.take MAX_QUERY_NAMES) with
    | none => exact ⟨[], by simp, by simp, by simp, by simp⟩
    | some r =>
      obtain ⟨connect, chunk_loads, at_ms⟩ := r
      have hloads := attempt_available hx hchunk hlen (fun name hn => hutf8 name (hsub name hn)) hr
      dsimp only at hloads ⊢
      obtain ⟨new, hnew, hcount, hat, hrtt⟩ := ih (fun name hn => hutf8 name (List.mem_of_mem_drop hn)) (k + 1)
        (rtt.or (some connect)) (loads ++ chunk_loads.map fun load => some (load, at_ms))
      generalize succeeded exchange (k + 1) (load_query_chunks (names.drop MAX_QUERY_NAMES)) = m at *
      refine ⟨chunk_loads.map (fun load => some (load, at_ms)) ++ new, ?_, ?_, ?_, ?_⟩
      · rw [hnew, List.append_assoc]
      · simp only [List.length_append, List.length_map, hloads, List.length_take, hcount, List.length_drop,
          Option.isSome_some, if_true, MAX_QUERY_NAMES]
        omega
      · intro i name hi hname
        have hin : i < names.length := (List.getElem?_eq_some_iff.1 hname).1
        by_cases hfirst : i < MAX_QUERY_NAMES
        · refine ⟨at_ms, ?_⟩
          have hdiv : i / MAX_QUERY_NAMES = 0 := Nat.div_eq_of_lt hfirst
          rw [List.getElem?_append_left (by simp [hloads]; omega), hdiv, hloads]
          simp [List.getElem?_take_of_lt hfirst, hname]
        · have hlater : (names.drop MAX_QUERY_NAMES)[i - MAX_QUERY_NAMES]? = some name := by
            rw [List.getElem?_drop, ← hname]
            congr 1
            omega
          have hdiv : k + 1 + (i - MAX_QUERY_NAMES) / MAX_QUERY_NAMES = k + i / MAX_QUERY_NAMES := by
            simp only [MAX_QUERY_NAMES] at hfirst ⊢
            omega
          have hfull : (chunk_loads.map fun load => some (load, at_ms)).length = MAX_QUERY_NAMES := by
            simp only [hloads, List.length_map, List.length_take]
            omega
          obtain ⟨at_ms', h⟩ := hat (i - MAX_QUERY_NAMES) name (by simp [MAX_QUERY_NAMES] at hi hfirst ⊢; omega) hlater
          refine ⟨at_ms', ?_⟩
          rw [List.getElem?_append_right (by omega), hfull, h, hdiv]
      · rw [hrtt]
        cases rtt <;> simp

theorem load_query_chunks_flatten (names : List Bytes) : (load_query_chunks names).flatten = names := by
  induction names using load_query_chunks.induct with
  | case1 =>
    rw [load_query_chunks, if_pos rfl]
    rfl
  | case2 names hne ih => rw [load_query_chunks_cons hne, List.flatten_cons, ih, List.take_append_drop]

/-- For every list of names and every peer, whatever its table is at each connection and
whichever connections fail. The chunks are the names in order, and the query of each is
read as one entry per name, none for a name that is empty or over 253 bytes. Every answer
keeps to the length the asking side allows, and is read back, loads capped at 1000. And
`query_load` returns nothing if no chunk succeeds; else as many loads as names, each of a
succeeded chunk the peer's own for that name, and the others absent. -/
theorem loads_stay_with_their_names {names : List Bytes} (hutf8 : ∀ name ∈ names, utf8_ok name = true)
    (hx : Reaches exchange nodes) :
    (load_query_chunks names).flatten = names ∧
    (∀ chunk ∈ load_query_chunks names, ∀ limit s rest, Incoming.Begins limit (encode_load_query chunk) s rest →
      read_proxy_v2 limit s = .ok (.LoadQuery (chunk.map asked), rest)) ∧
    (∀ loads : List (Option Nat), (encode_load_answer loads).length ≤ max_load_answer_len loads.length ∧
      parse_load_answer (encode_load_answer loads) loads.length = some (loads.map (·.map (min · 1000)))) ∧
    (succeeded exchange 0 (load_query_chunks names) = 0 → query_load exchange names = none) ∧
    (0 < succeeded exchange 0 (load_query_chunks names) → ∃ answer, query_load exchange names = some answer ∧
      answer.loads.length = names.length ∧ ∀ i name, names[i]? = some name →
        (i < MAX_QUERY_NAMES * succeeded exchange 0 (load_query_chunks names) →
          ∃ at_ms, answer.loads[i]? = some (some ((nodes (i / MAX_QUERY_NAMES)).available name, at_ms))) ∧
        (MAX_QUERY_NAMES * succeeded exchange 0 (load_query_chunks names) ≤ i → answer.loads[i]? = some none)) := by
  obtain ⟨new, hnew, hcount, hat, hrtt⟩ := query_chunks_loads hx hutf8 0 none []
  rw [List.nil_append] at hnew
  refine ⟨load_query_chunks_flatten names, ?_, fun loads =>
    ⟨length_encode_load_answer loads, parse_encode_load_answer loads⟩,
    ?_, ?_⟩
  · intro chunk hmem limit s rest hs
    obtain ⟨hchunk, hlen, hsub⟩ := mem_load_query_chunks hmem
    exact read_query hchunk hlen (fun name hn => hutf8 name (hsub name hn)) hs
  · intro hnone
    rw [query_load, hrtt.2 ⟨rfl, hnone⟩]
    rfl
  · intro hpos
    cases hr : (query_chunks exchange 0 none [] (load_query_chunks names)).1 with
    | none => exact absurd (hrtt.1 hr).2 (Nat.ne_of_gt hpos)
    | some rtt =>
      have hle : new.length ≤ names.length := hcount ▸ Nat.min_le_right _ _
      refine ⟨⟨rtt, new ++ List.replicate (names.length - new.length) none⟩, ?_, by simp; omega, ?_⟩
      · rw [query_load, hr, Option.map_some, hnew, resize, List.take_of_length_le hle]
      · intro i name hname
        have hin : i < names.length := (List.getElem?_eq_some_iff.1 hname).1
        constructor
        · intro hi
          obtain ⟨at_ms, h⟩ := hat i name hi hname
          rw [Nat.zero_add] at h
          exact ⟨at_ms, by rw [List.getElem?_append_left (List.getElem?_eq_some_iff.1 h).1, h]⟩
        · intro hi
          dsimp only
          rw [List.getElem?_append_right (by omega), List.getElem?_replicate, if_pos (by omega)]

end Asking

/-- A node with one measured route. -/
def measuredNode : Answering (Option Bytes) where
  table := (Router.build_route_table Router.literalCrates (fun _ => false) {} none
    [{ sni := bytes "a.example.com", upstreams := [.Uds [bytes "/run/a.sock"] [] [] false 300000 none] }] ⟨{}, {}⟩).1
  heap := {}
  published _ := 5 <<< 10 ||| 740
  now := 0
  limit := 5

/-- The route, a name the node does not have, what cannot be a name, and the route again in
a second chunk. -/
def askedNames : List Bytes :=
  [bytes "a.example.com", bytes "b.example.com"] ++ List.replicate 62 [] ++ [bytes "a.example.com"]

/-- The first connection gets through, and no other. -/
def firstExchange (node : Answering (Option Bytes)) (k : Nat) (query : Bytes) : Option Reply :=
  if k = 0 then some ⟨3, node.serve ⟨query.map (Prod.mk 1), none⟩, 9⟩ else none

theorem loads_stay_with_their_names_measured :
    ∃ answer, query_load (firstExchange measuredNode) askedNames = some answer ∧ answer.loads.length = 65 ∧
      (∃ at_ms, answer.loads[0]? = some (some (some 740, at_ms))) ∧
      (∃ at_ms, answer.loads[1]? = some (some (none, at_ms))) ∧ answer.loads[64]? = some none := by
  have hx : Reaches (firstExchange measuredNode) fun _ => measuredNode := by
    intro k query reply h
    obtain ⟨-, h⟩ := Option.ite_none_right_eq_some.1 h
    obtain rfl := Option.some.inj h
    refine ⟨⟨query.map (Prod.mk 1), none⟩, ?_, List.prefix_refl _⟩
    rw [List.map_map]
    exact (List.map_id query).symm ▸ List.prefix_refl _
  have hone : succeeded (firstExchange measuredNode) 0 (load_query_chunks askedNames) = 1 := by decide +kernel
  have hutf8 : ∀ name ∈ askedNames, utf8_ok name = true := by decide +kernel
  obtain ⟨-, -, -, -, h⟩ := loads_stay_with_their_names hutf8 hx
  rw [hone] at h
  obtain ⟨answer, hq, hlen, hat⟩ := h (by decide)
  have ha : measuredNode.available (bytes "a.example.com") = some 740 := by decide +kernel
  have hb : measuredNode.available (bytes "b.example.com") = none := by decide +kernel
  exact ⟨answer, hq, hlen, ha ▸ (hat 0 (bytes "a.example.com") rfl).1 (by decide),
    hb ▸ (hat 1 (bytes "b.example.com") rfl).1 (by decide), (hat 64 (bytes "a.example.com") rfl).2 (by decide)⟩

end Ingress

end Symphony
