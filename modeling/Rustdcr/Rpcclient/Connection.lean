import Rustdcr.Rpcclient.Httparse

/-!
# The connection adapter (`rpcclient::connection`)

`ConnConfig`, the CONNECT request `add_proxy_header` writes, and the loop of
`dial_connection` that reads the proxy's reply. The proxy's side is a
`Reply`: what each read returns, then end of stream, a read error, or an
open connection on which nothing more arrives. `read_to_end` returns only at
end of stream, so the loop runs on `fuel` and `none` is "has not returned".

* `dialConnection_eof` — at end of stream the result is one parse of all the
  bytes received: `Complete` gives the status verdict, an error gives
  `RpcProxyResponseParse`, `Partial` never returns;
* `dialConnection_head` — a reply that starts with a well-formed head and
  ends in end of stream gives `Ok` for 200, `RpcProxyStatus` for any other
  code, and `TooManyHeaders` past `headers::MAX_HEADERS` fields;
* `dialConnection_truncated_head` — a reply cut off inside such a head, then
  end of stream, never returns;
* `dialWebsocket_error` — a whole dial fails only with an error of one of its
  stages, `dial_connection`'s only through a proxy.

The websocket handshake runs on the stream the dial made; through a proxy
that stream has been read to its end, and `dialWebsocket_proxied_ne_ok`
says what follows.
-/

namespace Rustdcr.Rpcclient

open Httparse

/-- A `std::io::Error`, by its message. -/
structure IoError where
  message : String
  deriving DecidableEq, Repr

/-- A `native_tls::Error`, by its message. -/
structure TlsError where
  message : String
  deriving DecidableEq, Repr

/-- A `tungstenite::Error`, by its message. -/
structure WsError where
  message : String
  deriving DecidableEq, Repr

/-- A `serde_json::Error`, by its message. -/
structure JsonError where
  message : String
  deriving DecidableEq, Repr

/-- `RpcClientError`, the variants the connection adapter and the client raise. -/
inductive RpcClientError where
  | tcpStream (e : IoError)
  | wsTlsCertificate (e : TlsError)
  | tlsHandshake (e : TlsError)
  | tlsStream (e : TlsError)
  | proxyAuthentication (e : IoError)
  | rpcProxyStatus (code : Option UInt16)
  | rpcProxyResponseParse (e : Httparse.Error)
  | rpcHandshake (e : WsError)
  | rpcAuthenticationRequest
  | websocketAlreadyConnected
  | marshaller (e : JsonError)
  | rpcDisconnected
  deriving DecidableEq, Repr

/-- `ConnConfig`. -/
structure ConnConfig where
  host : String
  user : String
  password : String
  endpoint : String
  certificates : String
  proxyHost : Option String
  proxyUsername : String
  proxyPassword : String
  disableTls : Bool
  disableConnectOnNew : Bool
  disableAutoReconnect : Bool
  httpPostMode : Bool

/-- `ConnConfig::default`. -/
def ConnConfig.default : ConnConfig where
  certificates := ""
  disableConnectOnNew := false
  disableTls := false
  httpPostMode := false
  disableAutoReconnect := false
  endpoint := "ws"
  host := "127.0.0.1:19109"
  password := ""
  proxyHost := none
  proxyUsername := ""
  proxyPassword := ""
  user := ""

/-! ## The CONNECT request -/

/-- The standard base64 alphabet. -/
def base64Alphabet : List Char :=
  "ABCDEFGHIJKLMNOPQRSTUVWXYZabcdefghijklmnopqrstuvwxyz0123456789+/".toList

/-- The character of a six-bit group. -/
def base64Digit (n : Nat) : Char := base64Alphabet.getD n '='

/-- The characters of the padded standard encoding, three bytes at a time. -/
def base64Chars : List UInt8 → List Char
  | [] => []
  | [a] => [base64Digit (a.toNat / 4), base64Digit (a.toNat % 4 * 16), '=', '=']
  | [a, b] =>
    [base64Digit (a.toNat / 4), base64Digit (a.toNat % 4 * 16 + b.toNat / 16),
      base64Digit (b.toNat % 16 * 4), '=']
  | a :: b :: c :: rest =>
    base64Digit (a.toNat / 4) :: base64Digit (a.toNat % 4 * 16 + b.toNat / 16) ::
      base64Digit (b.toNat % 16 * 4 + c.toNat / 64) :: base64Digit (c.toNat % 64) ::
        base64Chars rest

/-- `base64::encode`. -/
def base64Encode (bytes : List UInt8) : String := ⟨base64Chars bytes⟩

example : base64Encode (utf8Bytes "user:pass") = "dXNlcjpwYXNz" := by decide

/-- `ConnConfig::add_proxy_header`: the CONNECT request with Basic
credentials, then the empty line, appended to `bufferedHeader`. -/
def ConnConfig.addProxyHeader (cfg : ConnConfig) (bufferedHeader : List UInt8) : List UInt8 :=
  let login := cfg.user ++ ":" ++ cfg.password
  let headerString := "Basic " ++ base64Encode (utf8Bytes login)
  bufferedHeader ++
    utf8Bytes ("CONNECT " ++ cfg.host ++ " HTTP/1.1\r\nHost: " ++ cfg.host ++
      "\r\nProxy-Connection: Keep-Alive\r\n") ++
    utf8Bytes ("proxy-authorization" ++ ": " ++ headerString ++ "\r\n") ++ utf8Bytes "\r\n"

/-! ## The proxy's reply -/

/-- How the proxy's side of the connection goes on after the bytes it sent. -/
inductive Ending where
  /-- End of stream: every later read returns `Ok(0)`. -/
  | eof
  /-- The next read fails. -/
  | error (e : IoError)
  /-- The connection stays open and nothing more arrives: a read waits forever. -/
  | pending

/-- The reply as `dial_connection` reads it: the bytes each read returns
(a read of none is end of stream, so none is empty), then its `Ending`. -/
structure Reply where
  reads : List (List UInt8)
  reads_ne : ∀ r ∈ reads, r ≠ []
  ending : Ending

/-- All the bytes the reply delivers. -/
def Reply.bytes (r : Reply) : List UInt8 := r.reads.flatten

/-- A stream that has reached its end. -/
def Reply.atEof : Reply := ⟨[], fun _ h => (nomatch h), .eof⟩

/-- What a call of `read_to_end` comes to. -/
inductive ReadToEnd where
  | ok (buf : List UInt8)
  | err (e : IoError)
  | blocked

/-- `AsyncReadExt::read_to_end`: every read appended to `buf` until one
returns `Ok(0)`. -/
def readToEnd : List (List UInt8) → Ending → List UInt8 → ReadToEnd
  | [], .eof, buf => .ok buf
  | [], .error e, _ => .err e
  | [], .pending, _ => .blocked
  | r :: rs, ending, buf => readToEnd rs ending (buf ++ r)

/-! ## `dial_connection` -/

/-- `headers::MAX_HEADERS`, the header slots of the parse. -/
def maxHeaders : Nat := 124

/-- What one parse of `read_buffered` makes the loop do; `none` is
`Partial`, which reads again. -/
def proxyVerdict : Except Httparse.Error Status → Option (Except RpcClientError Unit)
  | .ok .incomplete => none
  | .ok (.complete _ code) =>
    some (if code = 200 then .ok () else .error (.rpcProxyStatus (some code)))
  | .error e => some (.error (.rpcProxyResponseParse e))

/-- The `loop` of `dial_connection`, for at most `fuel` rounds; `none` while
it has not returned. -/
def dialLoop : Nat → Reply → List UInt8 → Option (Except RpcClientError Unit)
  | 0, _, _ => none
  | fuel + 1, reply, readBuffered =>
    match readToEnd reply.reads reply.ending readBuffered with
    | .err e => some (.error (.proxyAuthentication e))
    | .blocked => none
    | .ok buf =>
      match proxyVerdict (Response.parse maxHeaders buf) with
      | some r => some r
      | none => dialLoop fuel Reply.atEof buf

/-- An I/O action of a dial, in the order it is made. -/
inductive Event where
  | tcpConnect (addr : String)
  | tlsConnect (addr : String)
  | write (bytes : List UInt8)
  | wsHandshake (uri : String) (authorization : String)
  deriving DecidableEq, Repr

/-- What a dial did, and what it returned (`none`: it has not returned). -/
structure Dialled where
  events : List Event
  result : Option (Except RpcClientError Unit)

/-- The proxy connection: what `write_all` answers, then the reply. -/
structure ProxyStream where
  writeError : Option IoError
  reply : Reply

/-- `ConnConfig::dial_connection`, with at most `fuel` rounds of its loop. -/
def ConnConfig.dialConnection (fuel : Nat) (bufferedHeader : List UInt8)
    (stream : ProxyStream) : Dialled :=
  ⟨[.write bufferedHeader],
    match stream.writeError with
    | some e => some (.error (.proxyAuthentication e))
    | none => dialLoop fuel stream.reply []⟩

/-! ## How the loop ends -/

theorem readToEnd_eof (reads : List (List UInt8)) (buf : List UInt8) :
    readToEnd reads .eof buf = .ok (buf ++ reads.flatten) := by
  induction reads generalizing buf with
  | nil => simp [readToEnd]
  | cons r rs ih => simp [readToEnd, ih]

theorem readToEnd_error (reads : List (List UInt8)) (e : IoError) (buf : List UInt8) :
    readToEnd reads (.error e) buf = .err e := by
  induction reads generalizing buf with
  | nil => rfl
  | cons r rs ih => exact ih _

/-- Once the stream has ended, a `Partial` parse repeats on the same bytes. -/
theorem dialLoop_atEof {buf : List UInt8} (h : proxyVerdict (Response.parse maxHeaders buf) = none)
    (fuel : Nat) : dialLoop fuel Reply.atEof buf = none := by
  induction fuel with
  | zero => rfl
  | succ n ih => simpa only [dialLoop, Reply.atEof, readToEnd, List.append_nil, h] using ih

/-- At end of stream one round reads everything and its parse decides:
`Partial` never returns. -/
theorem dialLoop_eof (fuel : Nat) (reply : Reply) (buf : List UInt8) :
    dialLoop (fuel + 1) { reply with ending := .eof } buf =
      proxyVerdict (Response.parse maxHeaders (buf ++ reply.bytes)) := by
  simp only [dialLoop, readToEnd_eof, Reply.bytes]
  split
  · simp_all
  · simp_all [dialLoop_atEof]

/-! ## `dial_connection` on each kind of reply -/

/-- At end of stream the result is one parse of everything the proxy sent;
when that parse is `Partial`, no number of rounds returns. -/
theorem dialConnection_eof (header : List UInt8) (reply : Reply) (fuel : Nat) :
    (ConnConfig.dialConnection (fuel + 1) header ⟨none, { reply with ending := .eof }⟩).result =
      proxyVerdict (Response.parse maxHeaders reply.bytes) := by
  simp only [ConnConfig.dialConnection, dialLoop_eof, List.nil_append]

/-- A read error ends the loop in its first round. -/
theorem dialConnection_readError (header : List UInt8) (reply : Reply) (e : IoError)
    (fuel : Nat) :
    (ConnConfig.dialConnection (fuel + 1) header
        ⟨none, { reply with ending := .error e }⟩).result =
      some (.error (.proxyAuthentication e)) := by
  simp [ConnConfig.dialConnection, dialLoop, readToEnd_error]

theorem toUInt16_eq_200 {c : Nat} (hc : c < 1000) : c.toUInt16 = 200 ↔ c = 200 := by
  have h : c.toUInt16.toNat = c := Nat.mod_eq_of_lt (by omega)
  constructor
  · intro e
    rw [← h, e]
    rfl
  · rintro rfl
    rfl

/-- A reply that starts with a well-formed head and ends in end of stream,
after the CONNECT request: `Ok` for 200, `RpcProxyStatus` for any other
code, `TooManyHeaders` past `headers::MAX_HEADERS` fields. -/
theorem dialConnection_head (cfg : ConnConfig) (h : ResponseHead) (reply : Reply)
    (tunnel : List UInt8) (hbytes : reply.bytes = h.bytes ++ tunnel) (fuel : Nat) :
    ConnConfig.dialConnection (fuel + 1) (cfg.addProxyHeader [])
        ⟨none, { reply with ending := .eof }⟩ =
      ⟨[.write (cfg.addProxyHeader [])],
        some (if maxHeaders < h.fields.length then .error (.rpcProxyResponseParse .tooManyHeaders)
          else if h.code = 200 then .ok ()
          else .error (.rpcProxyStatus (some h.code.toUInt16)))⟩ := by
  simp only [ConnConfig.dialConnection, dialLoop_eof, List.nil_append, hbytes]
  split_ifs with hm hc
  · rw [parse_head_append_tooManyHeaders h hm]
    rfl
  · rw [parse_head_append h (by omega), proxyVerdict, if_pos ((toUInt16_eq_200 h.code_lt).2 hc)]
  · rw [parse_head_append h (by omega), proxyVerdict, if_neg (mt (toUInt16_eq_200 h.code_lt).1 hc)]

/-- `HTTP/1.1 200 OK` and the empty line. -/
def okHead : ResponseHead := ⟨true, 200, by decide, [79, 75], by decide, []⟩

/-- The head `okHead` in one read, then end of stream. -/
def okReply : Reply := ⟨[okHead.bytes], by decide, .eof⟩

theorem dialConnection_head_okReply :
    okReply.bytes = okHead.bytes ++ [] ∧
      ConnConfig.dialConnection 1 (ConnConfig.default.addProxyHeader [])
          ⟨none, { okReply with ending := .eof }⟩ =
        ⟨[.write (ConnConfig.default.addProxyHeader [])],
          some (if maxHeaders < okHead.fields.length then
              .error (.rpcProxyResponseParse .tooManyHeaders)
            else if okHead.code = 200 then .ok ()
            else .error (.rpcProxyStatus (some okHead.code.toUInt16)))⟩ :=
  have hb : okReply.bytes = okHead.bytes ++ [] := by simp [Reply.bytes, okReply]
  ⟨hb, dialConnection_head ConnConfig.default okHead okReply [] hb 0⟩

/-- The header line `a:`. -/
def shortField : HeaderField := ⟨[97], [], by decide, by decide, by decide⟩

/-- `HTTP/1.1 200 OK` with 125 header fields, one more than there are slots. -/
def crowdedHead : ResponseHead :=
  ⟨true, 200, by decide, [79, 75], by decide, List.replicate 125 shortField⟩

/-- The head `crowdedHead` in one read, then end of stream. -/
def crowdedReply : Reply := ⟨[crowdedHead.bytes], by decide, .eof⟩

/-- A 200 reply with 125 header fields is refused with `TooManyHeaders`. -/
theorem dialConnection_crowdedHead :
    crowdedHead.code = 200 ∧
      (ConnConfig.dialConnection 1 (ConnConfig.default.addProxyHeader [])
          ⟨none, { crowdedReply with ending := .eof }⟩).result =
        some (.error (.rpcProxyResponseParse .tooManyHeaders)) := by
  refine ⟨rfl, ?_⟩
  have hb : crowdedReply.bytes = crowdedHead.bytes ++ [] := by simp [Reply.bytes, crowdedReply]
  have hm : maxHeaders < crowdedHead.fields.length := by simp [crowdedHead, maxHeaders]
  simp only [ConnConfig.dialConnection, dialLoop_eof, List.nil_append, hb,
    parse_head_append_tooManyHeaders crowdedHead hm, proxyVerdict]

/-- An empty reply, then end of stream: `Partial` for ever, and the loop
never returns. -/
theorem dialConnection_empty_reply (cfg : ConnConfig) (fuel : Nat) :
    (ConnConfig.dialConnection fuel (cfg.addProxyHeader []) ⟨none, Reply.atEof⟩).result =
      none :=
  @dialLoop_atEof [] rfl fuel

/-- A reply cut off anywhere inside a well-formed head that fits the slots,
then end of stream: `Partial` for ever, and the loop never returns. -/
theorem dialConnection_truncated_head (header : List UInt8) (h : ResponseHead) (reply : Reply)
    (hs : h.fields.length ≤ maxHeaders) {k : Nat} (hk : k < h.bytes.length)
    (hbytes : reply.bytes = h.bytes.take k) (fuel : Nat) :
    (ConnConfig.dialConnection fuel header ⟨none, { reply with ending := .eof }⟩).result =
      none := by
  cases fuel with
  | zero => rfl
  | succ n =>
    simp only [ConnConfig.dialConnection, dialLoop_eof, List.nil_append, hbytes,
      parse_head_truncated h hs hk, proxyVerdict]

/-- The status line of `okHead` alone, `HTTP/1.1 200 OK` and its line end,
then end of stream. -/
def statusOnlyReply : Reply := ⟨[okHead.bytes.take 17], by decide, .eof⟩

theorem dialConnection_truncated_head_statusOnly :
    okHead.fields.length ≤ maxHeaders ∧ 17 < okHead.bytes.length ∧
      statusOnlyReply.bytes = okHead.bytes.take 17 ∧
      (ConnConfig.dialConnection 3 (ConnConfig.default.addProxyHeader [])
        ⟨none, { statusOnlyReply with ending := .eof }⟩).result = none :=
  have hb : statusOnlyReply.bytes = okHead.bytes.take 17 := by
    simp [Reply.bytes, statusOnlyReply]
  ⟨by decide, by decide, hb,
    dialConnection_truncated_head _ okHead statusOnlyReply (by decide) (by decide) hb 3⟩

/-! ## `dial_websocket` -/

/-- The stream `client_async` is given: as `connect_stream` opened it, or
read to its end by `dial_connection`, whose `read_to_end` returns only at
end of stream. -/
inductive StreamState where
  | fresh
  | atEof
  deriving DecidableEq, Repr

/-- What the network and the TLS and websocket libraries answer during a dial. -/
structure Network where
  /-- The error of `TcpStream::connect(addr)`, if it fails. -/
  tcpConnect : String → Option IoError
  /-- The error of `Certificate::from_pem` on the PEM text. -/
  fromPem : String → Option TlsError
  /-- The error of `TlsConnector::builder().build()`. -/
  tlsBuild : Option TlsError
  /-- The error of the TLS handshake with `addr`. -/
  tlsConnect : String → Option TlsError
  /-- The proxy, when one is dialled. -/
  proxy : ProxyStream
  /-- Whether `Request::builder()` accepts the URI. -/
  requestBuilds : String → Bool
  /-- The error of `client_async` on the stream, for the URI and the authorization header. -/
  clientAsync : StreamState → String → String → Option WsError
  /-- The handshake reads the server's answer from its stream; a stream at
  its end yields none, so there the handshake fails. -/
  clientAsync_atEof : ∀ uri authorization, clientAsync .atEof uri authorization ≠ none

/-- Run `k` after `d` when `d` returned `Ok`. -/
def Dialled.andThen (d k : Dialled) : Dialled :=
  match d.result with
  | some (.ok ()) => ⟨d.events ++ k.events, k.result⟩
  | _ => d

/-- `ConnConfig::connect_stream`: TCP to `addr`, then TLS with `addr` unless
`disable_tls`. -/
def ConnConfig.connectStream (cfg : ConnConfig) (net : Network) (addr : String) : Dialled :=
  match net.tcpConnect addr with
  | some e => ⟨[.tcpConnect addr], some (.error (.tcpStream e))⟩
  | none =>
    if cfg.disableTls then ⟨[.tcpConnect addr], some (.ok ())⟩
    else
      match net.fromPem cfg.certificates with
      | some e => ⟨[.tcpConnect addr], some (.error (.wsTlsCertificate e))⟩
      | none =>
        match net.tlsBuild with
        | some e => ⟨[.tcpConnect addr], some (.error (.tlsHandshake e))⟩
        | none =>
          ⟨[.tcpConnect addr, .tlsConnect addr],
            some (match net.tlsConnect addr with
              | some e => .error (.tlsStream e)
              | none => .ok ())⟩

/-- The websocket URI `dial_websocket` requests: `ws://` or `wss://`, the host, the endpoint. -/
def ConnConfig.wsUri (cfg : ConnConfig) : String :=
  (if cfg.disableTls then "ws" else "wss") ++ "://" ++ cfg.host ++ "/" ++ cfg.endpoint

/-- The `authorization` header of the websocket handshake. -/
def ConnConfig.authorization (cfg : ConnConfig) : String :=
  "Basic " ++ base64Encode (utf8Bytes (cfg.user ++ ":" ++ cfg.password))

/-- `ConnConfig::dial_websocket`, with at most `fuel` rounds of the proxy
loop. The handshake runs on the stream the dial made, which through a proxy
`dial_connection` has read to its end. -/
def ConnConfig.dialWebsocket (cfg : ConnConfig) (net : Network) (fuel : Nat) : Dialled :=
  let stream := match cfg.proxyHost with
    | some proxy => cfg.connectStream net proxy
    | none => cfg.connectStream net cfg.host
  let proxied := match cfg.proxyHost with
    | some _ => ConnConfig.dialConnection fuel (cfg.addProxyHeader []) net.proxy
    | none => ⟨[], some (.ok ())⟩
  let state : StreamState := if cfg.proxyHost.isSome then .atEof else .fresh
  let handshake : Dialled :=
    if net.requestBuilds cfg.wsUri then
      ⟨[.wsHandshake cfg.wsUri cfg.authorization],
        some (match net.clientAsync state cfg.wsUri cfg.authorization with
          | some e => .error (.rpcHandshake e)
          | none => .ok ())⟩
    else ⟨[], some (.error .rpcAuthenticationRequest)⟩
  (stream.andThen proxied).andThen handshake

/-- `ConnConfig::ws_split_stream`: the dial; splitting the stream and
spawning its writer cannot fail. -/
def ConnConfig.wsSplitStream (cfg : ConnConfig) (net : Network) (fuel : Nat) : Dialled :=
  cfg.dialWebsocket net fuel

/-! ## What a dial fails with -/

/-- The errors `connect_stream` raises. -/
def RpcClientError.ofConnectStream : RpcClientError → Bool
  | .tcpStream _ | .wsTlsCertificate _ | .tlsHandshake _ | .tlsStream _ => true
  | _ => false

/-- The errors `dial_connection` raises. -/
def RpcClientError.ofDialConnection : RpcClientError → Bool
  | .proxyAuthentication _ | .rpcProxyStatus _ | .rpcProxyResponseParse _ => true
  | _ => false

/-- The errors the handshake of `dial_websocket` raises. -/
def RpcClientError.ofHandshake : RpcClientError → Bool
  | .rpcHandshake _ | .rpcAuthenticationRequest => true
  | _ => false

/-- A failure of `d.andThen k` is `d`'s, or `k`'s after `d` returned `Ok`. -/
theorem Dialled.andThen_error {d k : Dialled} {e : RpcClientError}
    (h : (d.andThen k).result = some (.error e)) :
    d.result = some (.error e) ∨ k.result = some (.error e) := by
  unfold Dialled.andThen at h
  split at h
  · exact .inr h
  · exact .inl h

theorem Dialled.andThen_ok {d k : Dialled} (h : (d.andThen k).result = some (.ok ())) :
    d.result = some (.ok ()) ∧ k.result = some (.ok ()) := by
  unfold Dialled.andThen at h
  split at h
  · exact ⟨‹_›, h⟩
  · exact absurd h ‹_›

theorem connectStream_error {cfg : ConnConfig} {net : Network} {addr : String} {e : RpcClientError}
    (h : (cfg.connectStream net addr).result = some (.error e)) : e.ofConnectStream := by
  unfold ConnConfig.connectStream at h
  repeat' split at h
  all_goals cases h <;> rfl

theorem proxyVerdict_error {p : Except Httparse.Error Status} {e : RpcClientError}
    (h : proxyVerdict p = some (.error e)) : e.ofDialConnection := by
  unfold proxyVerdict at h
  split at h
  · cases h
  · split at h <;> cases h; rfl
  · cases h; rfl

theorem dialLoop_error {fuel : Nat} {reply : Reply} {buf : List UInt8} {e : RpcClientError}
    (h : dialLoop fuel reply buf = some (.error e)) : e.ofDialConnection := by
  induction fuel generalizing reply buf with
  | zero => cases h
  | succ n ih =>
    unfold dialLoop at h
    split at h
    · cases h; rfl
    · cases h
    · split at h
      · exact proxyVerdict_error (by rwa [‹proxyVerdict _ = _›])
      · exact ih h

theorem dialConnection_error {fuel : Nat} {header : List UInt8} {stream : ProxyStream}
    {e : RpcClientError} (h : (ConnConfig.dialConnection fuel header stream).result =
      some (.error e)) : e.ofDialConnection := by
  unfold ConnConfig.dialConnection at h
  split at h
  · cases h; rfl
  · exact dialLoop_error h

/-- A dial fails only with an error of one of its stages: `connect_stream`'s,
`dial_connection`'s (only through a proxy), or the handshake's. -/
theorem dialWebsocket_error {cfg : ConnConfig} {net : Network} {fuel : Nat} {e : RpcClientError}
    (h : (cfg.dialWebsocket net fuel).result = some (.error e)) :
    e.ofConnectStream ∨ (cfg.proxyHost.isSome ∧ e.ofDialConnection) ∨ e.ofHandshake := by
  unfold ConnConfig.dialWebsocket at h
  rcases Dialled.andThen_error h with h | h
  · rcases Dialled.andThen_error h with h | h
    · left
      split at h <;> exact connectStream_error h
    · right; left
      split at h
      · exact ⟨Option.isSome_iff_exists.2 ⟨_, ‹_›⟩, dialConnection_error h⟩
      · cases h
  · right; right
    split at h
    · simp only at h
      split at h
      · cases h; rfl
      · cases h
    · cases h; rfl

/-- Through a proxy a dial never gives a websocket: the handshake runs on a
stream `dial_connection` has read to its end. -/
theorem dialWebsocket_proxied_ne_ok {cfg : ConnConfig} (hp : cfg.proxyHost.isSome) (net : Network)
    (fuel : Nat) : (cfg.dialWebsocket net fuel).result ≠ some (.ok ()) := fun h => by
  have hk := (Dialled.andThen_ok h).2
  simp only [hp, if_true] at hk
  split at hk
  · simp only at hk
    split at hk
    · cases hk
    · exact net.clientAsync_atEof _ _ ‹_›
  · cases hk

end Rustdcr.Rpcclient
