import Rustdcr.Rpcclient.Connection
import Rustdcr.Rpcclient.HttparseSound

/-!
# The proxy's side of `dial_connection`

What the proxy reads from the CONNECT request `add_proxy_header` writes, and
what `dial_connection` accepts from it in return. The credentials are
decoded as RFC 4648 §4 says; the reply is read by one parse of all the bytes
at end of stream (`dialLoop_eof`), and `HttparseSound` says what that parse
accepts:

* `addProxyHeader_credentials` — the `proxy-authorization` line carries an
  encoding of `user:password` that decodes back to exactly those bytes;
* `dialConnection_eof_accepts` — once the proxy ends the stream,
  `dial_connection` returns `Ok` exactly when the bytes start with a head
  httparse accepts, of status 200, with no more fields than
  `headers::MAX_HEADERS`; `RpcProxyStatus` with the code exactly when they
  start with such a head of another status; it never returns exactly when
  they stop inside such a head; and `RpcProxyResponseParse` in every other
  case.
-/

namespace Rustdcr.Rpcclient

open Httparse

/-! ## The credentials of the CONNECT request -/

/-- RFC 4648 §4: the six-bit value of a character of the base64 alphabet. -/
def base64Value (c : Char) : Option Nat :=
  if 'A' ≤ c ∧ c ≤ 'Z' then some (c.toNat - 65)
  else if 'a' ≤ c ∧ c ≤ 'z' then some (c.toNat - 97 + 26)
  else if '0' ≤ c ∧ c ≤ '9' then some (c.toNat - 48 + 52)
  else if c = '+' then some 62
  else if c = '/' then some 63
  else none

/-- RFC 4648 §4 decoding of the padded encoding, four characters to three
bytes, with `=` padding only in the last group: what a proxy does with Basic
credentials. -/
def base64Decode : List Char → Option (List UInt8)
  | [] => some []
  | c1 :: c2 :: c3 :: c4 :: rest => do
    let d1 ← base64Value c1
    let d2 ← base64Value c2
    if c3 = '=' then
      if c4 = '=' ∧ rest = [] then some [(d1 * 4 + d2 / 16).toUInt8] else none
    else
      let d3 ← base64Value c3
      if c4 = '=' then
        if rest = [] then some [(d1 * 4 + d2 / 16).toUInt8, (d2 % 16 * 16 + d3 / 4).toUInt8]
        else none
      else
        let d4 ← base64Value c4
        let tail ← base64Decode rest
        some ((d1 * 4 + d2 / 16).toUInt8 :: (d2 % 16 * 16 + d3 / 4).toUInt8 ::
          (d3 % 4 * 64 + d4).toUInt8 :: tail)
  | _ => none

theorem base64Digit_spec :
    ∀ n, n < 64 → base64Value (base64Digit n) = some n ∧ base64Digit n ≠ '=' := by
  decide

/-- Every character of the alphabet decodes to its own index. -/
theorem base64Value_digit {n : Nat} (h : n < 64) : base64Value (base64Digit n) = some n :=
  (base64Digit_spec n h).1

/-- No character of the alphabet is the pad. -/
theorem base64Digit_ne_pad {n : Nat} (h : n < 64) : base64Digit n ≠ '=' :=
  (base64Digit_spec n h).2

theorem toUInt8_eq_of_toNat {a : UInt8} {n : Nat} (h : n = a.toNat) : n.toUInt8 = a :=
  (Byte.eq_iff_toNat _ _).2 (by
    rw [Byte.toNat_natToUInt8, h]
    exact Nat.mod_eq_of_lt a.toNat_lt_size)

/-- The decoder undoes the encoding, one group of three bytes at a time. -/
theorem base64Decode_chars (bytes : List UInt8) :
    base64Decode (base64Chars bytes) = some bytes := by
  induction bytes using base64Chars.induct with
  | case1 => rfl
  | case2 a =>
    have ha : a.toNat < 256 := a.toNat_lt_size
    simp (disch := omega) [base64Chars, base64Decode, base64Value_digit]
    exact toUInt8_eq_of_toNat (by omega)
  | case3 a b =>
    have ha : a.toNat < 256 := a.toNat_lt_size
    have hb : b.toNat < 256 := b.toNat_lt_size
    simp (disch := omega) [base64Chars, base64Decode, base64Value_digit, base64Digit_ne_pad]
    exact ⟨toUInt8_eq_of_toNat (by omega), toUInt8_eq_of_toNat (by omega)⟩
  | case4 a b c rest ih =>
    have ha : a.toNat < 256 := a.toNat_lt_size
    have hb : b.toNat < 256 := b.toNat_lt_size
    have hc : c.toNat < 256 := c.toNat_lt_size
    simp (disch := omega) [base64Chars, base64Decode, base64Value_digit, base64Digit_ne_pad, ih]
    exact ⟨toUInt8_eq_of_toNat (by omega), toUInt8_eq_of_toNat (by omega),
      toUInt8_eq_of_toNat (by omega)⟩

/-- The `proxy-authorization` line of the CONNECT request carries an encoding
of `user:password` that decodes back to exactly its bytes. -/
theorem addProxyHeader_credentials (cfg : ConnConfig) (bufferedHeader : List UInt8) :
    ∃ enc : String, cfg.addProxyHeader bufferedHeader = bufferedHeader ++
        utf8Bytes ("CONNECT " ++ cfg.host ++ " HTTP/1.1\r\nHost: " ++ cfg.host ++
          "\r\nProxy-Connection: Keep-Alive\r\n") ++
        utf8Bytes ("proxy-authorization: Basic " ++ enc ++ "\r\n") ++ utf8Bytes "\r\n" ∧
      base64Decode enc.toList = some (utf8Bytes (cfg.user ++ ":" ++ cfg.password)) :=
  ⟨base64Encode (utf8Bytes (cfg.user ++ ":" ++ cfg.password)), by
    simp only [ConnConfig.addProxyHeader, String.append_assoc]; rfl,
    base64Decode_chars _⟩

/-! ## The verdict of one parse -/

section Verdict

variable {p : Except Httparse.Error Status}

theorem proxyVerdict_eq_ok :
    proxyVerdict p = some (.ok ()) ↔ ∃ len, p = .ok (.complete len 200) := by
  rcases p with e | _ | ⟨len, code⟩ <;> simp [proxyVerdict]

theorem proxyVerdict_eq_status {c : UInt16} :
    proxyVerdict p = some (.error (.rpcProxyStatus (some c))) ↔
      c ≠ 200 ∧ ∃ len, p = .ok (.complete len c) := by
  rcases p with e | _ | ⟨len, code⟩ <;> simp [proxyVerdict]
  split_ifs with h <;> simp [h, eq_comm]
  rintro rfl
  exact h

theorem proxyVerdict_eq_none : proxyVerdict p = none ↔ p = .ok .incomplete := by
  rcases p with e | _ | ⟨len, code⟩ <;> simp [proxyVerdict]

theorem proxyVerdict_eq_parse {e : Httparse.Error} :
    proxyVerdict p = some (.error (.rpcProxyResponseParse e)) ↔ p = .error e := by
  rcases p with e | _ | ⟨len, code⟩ <;> simp [proxyVerdict]
  split_ifs <;> simp

end Verdict

/-! ## Every reply that ends the stream -/

section Eof

variable (header : List UInt8) (reply : Reply)

/-- At end of stream, what `dial_connection` returns after some number of
rounds is the verdict on all the bytes. -/
theorem dialConnection_eof_returns {r : Except RpcClientError Unit} :
    (∃ fuel, (ConnConfig.dialConnection fuel header ⟨none, { reply with ending := .eof }⟩).result =
      some r) ↔ proxyVerdict (Response.parse maxHeaders reply.bytes) = some r := by
  constructor
  · rintro ⟨_ | fuel, h⟩
    · cases h
    · simpa [ConnConfig.dialConnection, dialLoop_eof] using h
  · intro h
    exact ⟨1, by simpa [ConnConfig.dialConnection, dialLoop_eof] using h⟩

/-- At end of stream, `dial_connection` never returns exactly when the
verdict on all the bytes is to read again. -/
theorem dialConnection_eof_never :
    (∀ fuel, (ConnConfig.dialConnection fuel header ⟨none, { reply with ending := .eof }⟩).result =
      none) ↔ proxyVerdict (Response.parse maxHeaders reply.bytes) = none := by
  constructor
  · intro h
    simpa [ConnConfig.dialConnection, dialLoop_eof] using h 1
  · rintro h (_ | fuel)
    · rfl
    · simpa [ConnConfig.dialConnection, dialLoop_eof] using h

theorem dialConnection_eof_ok_iff :
    (∃ fuel, (ConnConfig.dialConnection fuel header
        ⟨none, { reply with ending := .eof }⟩).result = some (.ok ())) ↔
      ∃ a : AcceptedHead, a.fields.length ≤ maxHeaders ∧ a.bytes <+: reply.bytes ∧
        a.code = 200 := by
  rw [dialConnection_eof_returns, proxyVerdict_eq_ok]
  constructor
  · rintro ⟨len, h⟩
    obtain ⟨a, hs, hpre, -, hc⟩ := parse_eq_complete_iff.1 h
    exact ⟨a, hs, hpre, (toUInt16_eq_200 a.code_lt).1 hc.symm⟩
  · rintro ⟨a, hs, hpre, hc⟩
    exact ⟨_, parse_eq_complete_iff.2 ⟨a, hs, hpre, rfl, by rw [hc]; rfl⟩⟩

theorem dialConnection_eof_status_iff (c : UInt16) :
    (∃ fuel, (ConnConfig.dialConnection fuel header
        ⟨none, { reply with ending := .eof }⟩).result = some (.error (.rpcProxyStatus (some c)))) ↔
      ∃ a : AcceptedHead, a.fields.length ≤ maxHeaders ∧ a.bytes <+: reply.bytes ∧
        a.code ≠ 200 ∧ c = a.code.toUInt16 := by
  rw [dialConnection_eof_returns, proxyVerdict_eq_status]
  constructor
  · rintro ⟨hc, len, h⟩
    obtain ⟨a, hs, hpre, -, rfl⟩ := parse_eq_complete_iff.1 h
    exact ⟨a, hs, hpre, mt (toUInt16_eq_200 a.code_lt).2 hc, rfl⟩
  · rintro ⟨a, hs, hpre, hc, rfl⟩
    exact ⟨mt (toUInt16_eq_200 a.code_lt).1 hc, _,
      parse_eq_complete_iff.2 ⟨a, hs, hpre, rfl, rfl⟩⟩

theorem dialConnection_eof_never_iff :
    (∀ fuel, (ConnConfig.dialConnection fuel header
        ⟨none, { reply with ending := .eof }⟩).result = none) ↔
      ∃ a : AcceptedHead, a.fields.length ≤ maxHeaders ∧
        ∃ k < a.bytes.length, reply.bytes = a.bytes.take k := by
  rw [dialConnection_eof_never, proxyVerdict_eq_none, parse_eq_incomplete_iff]

theorem dialConnection_eof_parseError_iff :
    (∃ fuel e, (ConnConfig.dialConnection fuel header
        ⟨none, { reply with ending := .eof }⟩).result = some (.error (.rpcProxyResponseParse e))) ↔
      (¬∃ a : AcceptedHead, a.fields.length ≤ maxHeaders ∧ a.bytes <+: reply.bytes) ∧
      ¬∃ a : AcceptedHead, a.fields.length ≤ maxHeaders ∧
        ∃ k < a.bytes.length, reply.bytes = a.bytes.take k := by
  rw [← parse_eq_error_iff, exists_comm]
  exact exists_congr fun _ => (dialConnection_eof_returns header reply).trans proxyVerdict_eq_parse

/-- Once the proxy ends the stream, `dial_connection` returns `Ok` exactly
when its bytes start with an accepted head of status 200 and at most
`headers::MAX_HEADERS` fields, `RpcProxyStatus` with the code exactly when
they start with such a head of another status, never returns exactly when
they stop inside such a head, and fails to parse in every other case. -/
theorem dialConnection_eof_accepts :
    ((∃ fuel, (ConnConfig.dialConnection fuel header
        ⟨none, { reply with ending := .eof }⟩).result = some (.ok ())) ↔
      ∃ a : AcceptedHead, a.fields.length ≤ maxHeaders ∧ a.bytes <+: reply.bytes ∧
        a.code = 200) ∧
    (∀ c, (∃ fuel, (ConnConfig.dialConnection fuel header
        ⟨none, { reply with ending := .eof }⟩).result = some (.error (.rpcProxyStatus (some c)))) ↔
      ∃ a : AcceptedHead, a.fields.length ≤ maxHeaders ∧ a.bytes <+: reply.bytes ∧
        a.code ≠ 200 ∧ c = a.code.toUInt16) ∧
    ((∀ fuel, (ConnConfig.dialConnection fuel header
        ⟨none, { reply with ending := .eof }⟩).result = none) ↔
      ∃ a : AcceptedHead, a.fields.length ≤ maxHeaders ∧
        ∃ k < a.bytes.length, reply.bytes = a.bytes.take k) ∧
    ((∃ fuel e, (ConnConfig.dialConnection fuel header
        ⟨none, { reply with ending := .eof }⟩).result = some (.error (.rpcProxyResponseParse e))) ↔
      (¬∃ a : AcceptedHead, a.fields.length ≤ maxHeaders ∧ a.bytes <+: reply.bytes) ∧
      ¬∃ a : AcceptedHead, a.fields.length ≤ maxHeaders ∧
        ∃ k < a.bytes.length, reply.bytes = a.bytes.take k) :=
  ⟨dialConnection_eof_ok_iff header reply, dialConnection_eof_status_iff header reply,
    dialConnection_eof_never_iff header reply, dialConnection_eof_parseError_iff header reply⟩

end Eof

end Rustdcr.Rpcclient
