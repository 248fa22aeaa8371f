import Symphony.Lib.Writes
import Symphony.Http.Rfc
import Symphony.Http.Alone
/-!
# Numbers in the framing

The request pump reads a Content-Length and a chunk size with the standard library's
parsers. These take a `+` before the digits, and the text is first trimmed of more than
the spaces and tabs the protocol allows around it. So the numbers in what the pump
forwards are digits only exactly where the client has used neither (`framed_strict_iff`).
-/

namespace Symphony.Http

open Lib (Prog)
open Lib.Prog (Interleaved)

/-! ## Spellings -/

/-- The values of the Content-Length fields of a request, as they stand. -/
def length_values (block : Bytes) : List Bytes :=
  values (bytes "content-length") ((field_lines (after_request_line block)).filterMap raw_field)

/-- The size in a chunk-size line, up to an extension. -/
def size_field (line : Bytes) : Bytes := (split_on 59 line).headD []

def is_hex_digit (b : UInt8) : Bool := (hex_digit b).isSome

/-- One or more digits. -/
def IsNumber (digit : UInt8 → Bool) (v : Bytes) : Prop := v ≠ [] ∧ ∀ b ∈ v, digit b = true

/-- The numbers that frame a forwarded request are digits only, but for spaces and tabs
around them. -/
structure StrictlyFramed (r : Bytes × Bytes) : Prop where
  lengths : is_connect r.1 = false → ∀ v ∈ length_values r.1, IsNumber is_ascii_digit (trim_ows v)
  sizes : framed_body r.1 = .ok .Chunked → ∀ l ∈ chunk_lines r.2, IsNumber is_hex_digit (trim_ows (size_field l))

/-- Without a sign, and with no white space around it but spaces and tabs. -/
def Unsigned (trimmed v : Bytes) : Prop := trimmed = trim_ows v ∧ (trim_ows v).head? ≠ some 43

/-- The client has spelled the numbers that frame a request without a sign, and with no
white space around them but spaces and tabs. -/
structure PlainlySpelled (r : Bytes × Bytes) : Prop where
  lengths : is_connect r.1 = false → ∀ v ∈ length_values r.1, Unsigned (trim_ascii v) v
  sizes : framed_body r.1 = .ok .Chunked → ∀ l ∈ chunk_lines r.2, Unsigned (trim (size_field l)) (size_field l)

theorem to_digit_ten : ∀ b, (to_digit 10 b).isSome = is_ascii_digit b := forall_byte (by decide +kernel)

theorem to_digit_sixteen : ∀ b, (to_digit 16 b).isSome = is_hex_digit b := forall_byte (by decide +kernel)

section Parsed

variable {radix : Nat} {digit : UInt8 → Bool} (hdigit : ∀ b, (to_digit radix b).isSome = digit b)
include hdigit

theorem IsNumber.no_sign {v : Bytes} (h : IsNumber digit v) : v.head? ≠ some 43 := by
  intro hv
  have hplus : (to_digit radix 43).isSome := by
    rw [hdigit]
    exact h.2 43 (List.mem_of_mem_head? hv)
  have := to_digit_range hplus
  revert this
  decide

/-- A text the standard library reads is a number, unless it starts with a sign. -/
theorem IsNumber.of_parse {top n : Nat} {v : Bytes} (h : from_str_radix radix top v = some n)
    (hsign : v.head? ≠ some 43) : IsNumber digit v := by
  unfold from_str_radix at h
  split at h
  · cases h
  · exact absurd rfl hsign
  · exact absurd rfl hsign
  · rename_i hne _ _
    refine ⟨hne, fun b hb => ?_⟩
    rw [← hdigit]
    exact mem_of_digits (foldlM_of_parse_digits h) b hb

/-- What separates the numbers the pump reads from the digits the protocol has. -/
theorem isNumber_iff_unsigned {top n : Nat} {trimmed v : Bytes} (h : from_str_radix radix top trimmed = some n)
    (htrim : IsNumber digit (trim_ows v) → trimmed = trim_ows v) :
    IsNumber digit (trim_ows v) ↔ Unsigned trimmed v := by
  constructor
  · intro hv
    exact ⟨htrim hv, hv.no_sign hdigit⟩
  · rintro ⟨rfl, hsign⟩
    exact .of_parse hdigit h hsign

end Parsed

theorem trim_of_number {v : Bytes} (h : IsNumber is_hex_digit (trim_ows v)) : trim v = trim_ows v :=
  trim_of_visible ows_whitespace fun b hb => is_visible_of_hex b (h.2 b hb)

/-! ## What the pump has read -/

theorem from_utf8_eq {v w : Bytes} (h : from_utf8 v = some w) : w = v := by
  unfold from_utf8 at h
  split_ifs at h
  exact (Option.some.inj h).symm

theorem Framed.length_read {rewrites : List HeaderRewrite} {r : Bytes × Bytes} (h : Framed rewrites r)
    (hconnect : is_connect r.1 = false) : ∀ v ∈ length_values r.1, ∃ n, parse_u64 (trim_ascii v) = some n := by
  intro v hv
  obtain ⟨out, hout⟩ := h.head
  obtain ⟨body, hbody, -⟩ := h.body
  have hnames := (rewrite_request_head_ok hout).1
  rw [framed_body, hconnect, if_neg Bool.false_ne_true, request_body, header_fields, fields_of_named hnames] at hbody
  obtain ⟨s, hs, -⟩ := Lib.bind_ok hbody
  have hread := (scan_fields_ok hs).2.2.1 (trim_ascii v) (by
    rw [values_trimmed]
    exact List.mem_map_of_mem hv)
  obtain ⟨n, hn⟩ := Option.isSome_iff_exists.1 hread.2
  rw [hn] at hread
  obtain ⟨w, hw, hparse⟩ := Option.bind_eq_some_iff.1 hread.1
  rw [from_utf8_eq hw] at hparse
  exact ⟨n, hparse⟩

theorem Sized.size_read {l : Bytes} (h : Sized l) : ∃ n, from_str_radix 16 U64_MAX (trim (size_field l)) = some n := by
  obtain ⟨size, h⟩ := h
  have hline : (l ++ CRLF).take ((l ++ CRLF).length - 2) = l := by simp [CRLF]
  unfold chunk_size at h
  rw [hline] at h
  dsimp only at h
  split at h
  · cases h
  · rename_i text htext
    rw [from_utf8_eq htext] at h
    split at h
    · cases h
    · rename_i n hn
      exact ⟨n, hn⟩

/-! ## Forwarded requests -/

/-- **Which framing is forwarded.** However the two pumps are interleaved and whatever
arrives from both ends, the numbers that frame a request the pump has forwarded, and each
chunk of it, are digits only if and only if the client has spelled them without a sign and
with no other white space around them than spaces and tabs. -/
theorem framed_strict_iff {rewrites : List HeaderRewrite} {inner fuel inner' fuel' : Nat} {p q : Pump Unit} {c : Conn}
    (h : Interleaved (serves .request) (serves .response) (rewrite_request_stream rewrites inner fuel)
      (forward_response_stream inner' fuel') Conn.init p q c) (r : Bytes × Bytes) (hr : r ∈ forwarded c.log) :
    StrictlyFramed r ↔ PlainlySpelled r := by
  have hframed := (interleaved_kept h .request).framed r hr
  have hlength : is_connect r.1 = false → ∀ v ∈ length_values r.1,
      (IsNumber is_ascii_digit (trim_ows v) ↔ Unsigned (trim_ascii v) v) := by
    intro hc v hv
    obtain ⟨n, hn⟩ := hframed.length_read hc v hv
    refine isNumber_iff_unsigned to_digit_ten hn fun hd => trim_ascii_of_ows fun b hb => ?_
    exact digit_not_whitespace (to_digit_ten b ▸ hd.2 b hb)
  have hsize : framed_body r.1 = .ok .Chunked → ∀ l ∈ chunk_lines r.2,
      (IsNumber is_hex_digit (trim_ows (size_field l)) ↔ Unsigned (trim (size_field l)) (size_field l)) := by
    intro hb l hl
    obtain ⟨n, hn⟩ := (hframed.chunks hb l hl).size_read
    exact isNumber_iff_unsigned to_digit_sixteen hn trim_of_number
  constructor
  · rintro ⟨hl, hs⟩
    exact ⟨fun hc v hv => (hlength hc v hv).1 (hl hc v hv), fun hb l hm => (hsize hb l hm).1 (hs hb l hm)⟩
  · rintro ⟨hl, hs⟩
    exact ⟨fun hc v hv => (hlength hc v hv).2 (hl hc v hv), fun hb l hm => (hsize hb l hm).2 (hs hb l hm)⟩

/-- Two requests, one with a Content-Length and one chunked, with this sign before the
numbers that frame them. -/
def framedPlay (sign : String) : Play where
  request := rewrite_request_stream [] 20 20
  response := forward_response_stream 20 20
  conn := Conn.init
  client :=
    [bytes "POST /a HTTP/1.1\r\nContent-Length: " ++ bytes sign ++ bytes "2\r\n\r\nhi",
      bytes "POST /b HTTP/1.1\r\nTransfer-Encoding: chunked\r\n\r\n" ++ bytes sign ++ bytes "2\r\nhi\r\n0\r\n\r\n"]
  upstream := []

def framedSchedule : List Side := List.replicate 60 .request

theorem framedPlay_interleaved (sign : String) :
    Interleaved (serves .request) (serves .response) (rewrite_request_stream [] 20 20) (forward_response_stream 20 20)
      Conn.init ((framedPlay sign).run framedSchedule).request ((framedPlay sign).run framedSchedule).response
      ((framedPlay sign).run framedSchedule).conn :=
  run_interleaved (x := framedPlay sign) .start framedSchedule

theorem framed_strict_unsigned :
    StrictlyFramed (bytes "POST /a HTTP/1.1\r\nContent-Length: 2\r\n\r\n", bytes "hi") ∧
    StrictlyFramed (bytes "POST /b HTTP/1.1\r\nTransfer-Encoding: chunked\r\n\r\n", bytes "2\r\nhi\r\n0\r\n\r\n") := by
  have h := framed_strict_iff (framedPlay_interleaved "")
  refine ⟨(h _ (by decide +kernel)).2 ⟨fun _ => ?_, fun hb => ?_⟩,
    (h _ (by decide +kernel)).2 ⟨fun _ => ?_, fun _ => ?_⟩⟩
  · unfold Unsigned
    decide +kernel
  · exact absurd hb (by decide +kernel)
  · unfold Unsigned
    decide +kernel
  · unfold Unsigned
    decide +kernel

/-- Both requests are forwarded with `+2` for their length and their chunk size. -/
theorem signed_numbers_forwarded :
    Interleaved (serves .request) (serves .response) (rewrite_request_stream [] 20 20) (forward_response_stream 20 20)
      Conn.init ((framedPlay "+").run framedSchedule).request ((framedPlay "+").run framedSchedule).response
      ((framedPlay "+").run framedSchedule).conn ∧
    forwarded ((framedPlay "+").run framedSchedule).conn.log =
      [(bytes "POST /a HTTP/1.1\r\nContent-Length: +2\r\n\r\n", bytes "hi"),
        (bytes "POST /b HTTP/1.1\r\nTransfer-Encoding: chunked\r\n\r\n", bytes "+2\r\nhi\r\n0\r\n\r\n")] ∧
    ¬StrictlyFramed (bytes "POST /a HTTP/1.1\r\nContent-Length: +2\r\n\r\n", bytes "hi") ∧
    ¬StrictlyFramed (bytes "POST /b HTTP/1.1\r\nTransfer-Encoding: chunked\r\n\r\n", bytes "+2\r\nhi\r\n0\r\n\r\n") := by
  refine ⟨framedPlay_interleaved "+", by decide +kernel, fun h => ?_, fun h => ?_⟩
  · have hnum := h.lengths (by decide +kernel) (bytes " +2") (by decide +kernel)
    exact hnum.no_sign to_digit_ten (by decide +kernel)
  · have hnum := h.sizes (by decide +kernel) (bytes "+2") (by decide +kernel)
    exact hnum.no_sign to_digit_sixteen (by decide +kernel)

end Symphony.Http
