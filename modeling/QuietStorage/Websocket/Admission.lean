import Mathlib.Algebra.Order.Group.Int
import QuietStorage.Websocket.RateLimit

/-!
# Websocket.Admission — which connections the gateway lets in

`handleConnection` and `handleDisconnect` of `WebsocketGateway`, and the callback of its cleanup
timer, over the two maps of the gateway. A connection is refused when its peer has too many open
sockets, and then it is not recorded, or when it has too many attempts in the window, and then it is.

A run is a list of events with the clock they read; the timer may fire anywhere, so the interval it
was set to is not in the model. A refused socket is disconnected at once, which only deletes an id that
the map does not have. What is counted is read off the history of the run (`connected`, `admissions`),
not off the maps. Left out: the logger, and the event handlers that an admitted socket gets.
-/

set_option autoImplicit false

namespace QuietStorage.Websocket

open Lib Lib.SlidingWindow

/-- The limits, as `getPositiveInteger` reads them. -/
structure WebsocketRateLimitConfig where
  windowMs : Nat
  maxAttemptsInWindow : Nat
  maxConcurrentPerIp : Nat
  positive : 0 < windowMs ∧ 0 < maxAttemptsInWindow ∧ 0 < maxConcurrentPerIp

def DEFAULT_WEBSOCKET_RATE_LIMIT_CONFIG : WebsocketRateLimitConfig where
  windowMs := 60000
  maxAttemptsInWindow := 300
  maxConcurrentPerIp := 250
  positive := by decide

/-- What a connecting socket is to the gateway. Headers that name another address are not read. -/
structure ConnectingSocket where
  id : String
  handshakeAddress : String
  deriving DecidableEq, Repr

def getClientIp (socket : ConnectingSocket) : String := socket.handshakeAddress

/-- The maps of the gateway: address → times of its attempts, id of an open socket → its address. -/
structure GatewayMaps where
  connectionRates : ConnectionRates := JsMap.empty
  socketIps : JsMap String String := JsMap.empty

/-- The maps after a connection, and whether it was let in. -/
def handleConnection (config : WebsocketRateLimitConfig) (maps : GatewayMaps)
    (client : ConnectingSocket) (now : Int) : GatewayMaps × Bool :=
  let ip := getClientIp client
  let pruned := pruneConnectionRates maps.connectionRates now config.windowMs
  let concurrentCount := countConcurrentConnections maps.socketIps.values ip
  if config.maxConcurrentPerIp ≤ concurrentCount then
    ({ maps with connectionRates := pruned }, false)
  else
    let (recorded, attemptsInWindow) := recordConnectionAttempt pruned ip now config.windowMs
    if config.maxAttemptsInWindow < attemptsInWindow then
      ({ maps with connectionRates := recorded }, false)
    else
      ({ connectionRates := recorded, socketIps := maps.socketIps.set client.id ip }, true)

def handleDisconnect (maps : GatewayMaps) (id : String) : GatewayMaps :=
  { maps with socketIps := maps.socketIps.delete id }

/-! ## Runs -/

inductive GatewayEvent where
  | connection (client : ConnectingSocket) (now : Int)
  | disconnection (id : String)
  | cleanupTimer (now : Int)
  deriving DecidableEq, Repr

namespace GatewayEvent

/-- The clock an event reads. -/
def clock? : GatewayEvent → Option Int
  | .connection _ now => some now
  | .disconnection _ => none
  | .cleanupTimer now => some now

/-- The id of a socket that connects. -/
def connecting? : GatewayEvent → Option String
  | .connection client _ => some client.id
  | .disconnection _ | .cleanupTimer _ => none

end GatewayEvent

/-- The maps after an event, and whether a connection was let in. -/
def handleEvent (config : WebsocketRateLimitConfig) (maps : GatewayMaps) :
    GatewayEvent → GatewayMaps × Bool
  | .connection client now => handleConnection config maps client now
  | .disconnection id => (handleDisconnect maps id, false)
  | .cleanupTimer now =>
    ({ maps with connectionRates :=
        pruneConnectionRates maps.connectionRates now config.windowMs }, false)

/-- What happened: each event, with whether it let a connection in. -/
abbrev History := List (GatewayEvent × Bool)

/-- A run of a new gateway. -/
def gatewayRun (config : WebsocketRateLimitConfig) (events : List GatewayEvent) :
    GatewayMaps × History :=
  events.foldl
    (fun before event =>
      let (maps, admitted) := handleEvent config before.1 event
      (maps, before.2 ++ [(event, admitted)]))
    ({}, [])

/-- The sockets that were let in and have not disconnected since, with their addresses. -/
def connected : History → List (String × String)
  | [] => []
  | (.connection client _, true) :: later =>
    if .disconnection client.id ∈ later.map Prod.fst then connected later
    else (client.id, getClientIp client) :: connected later
  | _ :: later => connected later

/-- The time at which a connection of an address was let in. -/
def admission? (ip : String) : GatewayEvent × Bool → Option Int
  | (.connection client now, true) => if getClientIp client = ip then some now else none
  | _ => none

/-- When the connections of an address were let in. -/
def admissions (ip : String) (history : History) : List Int := history.filterMap (admission? ip)

theorem gatewayRun_concat (config : WebsocketRateLimitConfig) (events : List GatewayEvent)
    (event : GatewayEvent) :
    gatewayRun config (events ++ [event]) =
      ((handleEvent config (gatewayRun config events).1 event).1,
        (gatewayRun config events).2 ++
          [(event, (handleEvent config (gatewayRun config events).1 event).2)]) := by
  simp [gatewayRun]

/-! ## Who is connected -/

/-- **What happens last** ends the socket that it disconnects, and may let one in. -/
theorem connected_concat (history : History) (record : GatewayEvent × Bool) :
    connected (history ++ [record]) =
      ((connected history).filter fun socket => decide (.disconnection socket.1 ≠ record.1)) ++
        connected [record] := by
  induction history with
  | nil => rfl
  | cons earlier later ih =>
    obtain ⟨event, admitted⟩ := earlier
    cases event with
    | connection client time =>
      cases admitted with
      | false => simpa [connected] using ih
      | true =>
        simp only [connected, List.cons_append, List.map_append, List.map_cons, List.map_nil,
          List.mem_append, List.mem_singleton]
        by_cases gone : .disconnection client.id ∈ later.map Prod.fst
        · simp [gone, ih]
        · by_cases its : .disconnection client.id = record.1
          · rw [if_pos (.inr its), if_neg gone, ih, List.filter_cons_of_neg (by simpa using its)]
          · rw [if_neg (not_or.mpr ⟨gone, its⟩), if_neg gone, ih,
              List.filter_cons_of_pos (by simpa using its), List.cons_append]
    | disconnection other => simpa [connected] using ih
    | cleanupTimer time => simpa [connected] using ih

theorem connected_concat_admitted (history : History) (client : ConnectingSocket) (now : Int) :
    connected (history ++ [(.connection client now, true)]) =
      connected history ++ [(client.id, getClientIp client)] := by
  simp [connected_concat, connected]

/-- A disconnection takes its socket out. -/
theorem connected_concat_disconnection (history : History) (id : String) (b : Bool) :
    connected (history ++ [(.disconnection id, b)]) =
      (connected history).filter fun socket => decide (socket.1 ≠ id) := by
  simp [connected_concat, connected]

/-- An event that neither lets a socket in nor ends one. -/
theorem connected_concat_refused (history : History) {event : GatewayEvent}
    (ends : ∀ id, event ≠ .disconnection id) :
    connected (history ++ [(event, false)]) = connected history := by
  have noneEnds (socket : String × String) : .disconnection socket.1 ≠ event :=
    fun same => ends _ same.symm
  cases event <;> simp [connected_concat, connected, noneEnds]

/-- Only a socket that connected is connected. -/
theorem connecting_of_connected {history : History} {socket : String × String}
    (mem : socket ∈ connected history) :
    socket.1 ∈ (history.map Prod.fst).filterMap GatewayEvent.connecting? := by
  induction history with
  | nil => cases mem
  | cons record later ih =>
    obtain ⟨event, admitted⟩ := record
    cases event with
    | connection client time =>
      simp only [List.map_cons, List.filterMap_cons, GatewayEvent.connecting?, List.mem_cons]
      cases admitted with
      | false => exact .inr (ih mem)
      | true =>
        simp only [connected] at mem
        split at mem
        · exact .inr (ih mem)
        · rcases List.mem_cons.mp mem with rfl | mem
          · exact .inl rfl
          · exact .inr (ih mem)
    | disconnection id => exact ih mem
    | cleanupTimer time => exact ih mem

/-! ## The books of the gateway -/

variable {config : WebsocketRateLimitConfig} {maps : GatewayMaps} {history : History} {now : Int}

/-- The rates are what recording and pruning calls left, among whose records are all admissions. -/
structure RecordsOf (config : WebsocketRateLimitConfig) (now : Int) (rates : ConnectionRates)
    (calls : List RateCall) (history : History) : Prop where
  made : rates = ratesAfter config.windowMs JsMap.empty calls
  clock : (calls.map RateCall.now).Pairwise (· ≤ ·)
  passed : ∀ call ∈ calls, call.now ≤ now
  all : ∀ ip, (admissions ip history).Sublist (attempts JsMap.empty ip calls)

/-- What the maps say of the history at a time: the open sockets are those connected, and every
admission was within the limit when it was made. -/
structure Books (config : WebsocketRateLimitConfig) (now : Int) (maps : GatewayMaps)
    (history : History) : Prop where
  socketIps : maps.socketIps.entries = connected history
  concurrent : ∀ ip, (connected history).countP (fun socket => socket.2 = ip) ≤
    config.maxConcurrentPerIp
  records : ∃ calls, RecordsOf config now maps.connectionRates calls history
  limited : ∀ ip (before after : List Int) (t : Int), admissions ip history = before ++ t :: after →
    (recent (t - config.windowMs) (before ++ [t])).length ≤ config.maxAttemptsInWindow

theorem books_start (config : WebsocketRateLimitConfig) (now : Int) : Books config now {} [] where
  socketIps := rfl
  concurrent := by simp [connected]
  records := ⟨[], rfl, List.Pairwise.nil, by simp, fun ip => List.nil_sublist _⟩
  limited := by simp [admissions]

theorem Books.mono {later : Int} (books : Books config now maps history) (le : now ≤ later) :
    Books config later maps history := by
  obtain ⟨calls, records⟩ := books.records
  have passed : ∀ call ∈ calls, call.now ≤ later := fun call mem => (records.passed call mem).trans le
  exact { books with records := ⟨calls, { records with passed := passed }⟩ }

/-- **The step lemma of the rates**: a call that reads a clock which has not gone back, and the
history that may have grown by the admission it recorded. -/
theorem RecordsOf.call {rates : ConnectionRates} {calls : List RateCall}
    (records : RecordsOf config now rates calls history) (call : RateCall) (reads : call.now = now)
    {admitted : History}
    (recorded : ∀ ip, (admissions ip admitted).Sublist (call.attempt? ip).toList) :
    RecordsOf config now (call.apply config.windowMs rates) (calls ++ [call])
      (history ++ admitted) where
  made := by rw [ratesAfter_concat, ← records.made]
  clock := by
    rw [List.map_append, List.pairwise_append]
    refine ⟨records.clock, List.pairwise_singleton _ _, ?_⟩
    simpa [reads] using records.passed
  passed := by
    intro c mem
    rcases List.mem_append.mp mem with mem | mem
    · exact records.passed c mem
    · rw [List.mem_singleton.mp mem, reads]
  all := by
    intro ip
    have grown : attempts JsMap.empty ip (calls ++ [call]) =
        attempts JsMap.empty ip calls ++ (call.attempt? ip).toList := by
      cases attempted : call.attempt? ip <;> simp [attempts, attempted]
    rw [grown, admissions, List.filterMap_append]
    exact (records.all ip).append (recorded ip)

/-- A call that is not an admission. -/
theorem RecordsOf.call_only {rates : ConnectionRates} {calls : List RateCall}
    (records : RecordsOf config now rates calls history) (call : RateCall) (reads : call.now = now) :
    RecordsOf config now (call.apply config.windowMs rates) (calls ++ [call]) history := by
  have recorded : ∀ ip, (admissions ip []).Sublist (call.attempt? ip).toList :=
    fun ip => List.nil_sublist _
  simpa using records.call call reads recorded

/-- What is recent of the admissions was recorded, and is kept. -/
theorem RecordsOf.recent_admissions {rates : ConnectionRates} {calls : List RateCall}
    (records : RecordsOf config now rates calls history) (ip : String) :
    (recent (now - config.windowMs) (admissions ip history ++ [now])).length ≤
      (recordConnectionAttempt rates ip now config.windowMs).2 := by
  have faithful := faithful_ratesAfter config.windowMs JsMap.empty records.clock records.passed
  have among : (recent (now - config.windowMs) (admissions ip history)).Sublist
      (recent (now - config.windowMs) (attempts JsMap.empty ip calls)) :=
    (records.all ip).filter _
  have one : (recent (now - config.windowMs) [now]).length ≤ 1 := List.length_filter_le _ _
  have same : recent (now - config.windowMs) (kept (ratesAfter config.windowMs JsMap.empty calls) ip) =
      recent (now - config.windowMs) (attempts JsMap.empty ip calls) := faithful ip _ (le_refl _)
  rw [record_count, records.made, same, recent_append, List.length_append]
  have := among.length_le
  omega

/-- An event that lets nobody in and ends nobody keeps the books, if it keeps the records. -/
theorem Books.refused (books : Books config now maps history) {event : GatewayEvent}
    (ends : ∀ id, event ≠ .disconnection id) {rates : ConnectionRates}
    (records : ∃ calls, RecordsOf config now rates calls history) :
    Books config now { maps with connectionRates := rates } (history ++ [(event, false)]) := by
  have same : ∀ ip, admissions ip (history ++ [(event, false)]) = admissions ip history := by
    intro ip
    cases event <;> simp [admissions, admission?]
  have stays := connected_concat_refused history ends
  obtain ⟨calls, records⟩ := records
  refine ⟨?_, ?_, ⟨calls, { records with all := ?_ }⟩, ?_⟩
  · rw [stays]
    exact books.socketIps
  · rw [stays]
    exact books.concurrent
  · intro ip
    rw [same]
    exact records.all ip
  · intro ip
    rw [same]
    exact books.limited ip

theorem Books.disconnected (books : Books config now maps history) (id : String) :
    Books config now (handleDisconnect maps id) (history ++ [(.disconnection id, false)]) := by
  have same : ∀ ip, admissions ip (history ++ [(.disconnection id, false)]) =
      admissions ip history := by
    intro ip
    simp [admissions, admission?]
  obtain ⟨calls, records⟩ := books.records
  refine ⟨?_, ?_, ⟨calls, { records with all := ?_ }⟩, ?_⟩
  · rw [connected_concat_disconnection, ← books.socketIps]
    rfl
  · intro ip
    rw [connected_concat_disconnection]
    exact (List.Sublist.countP_le List.filter_sublist).trans (books.concurrent ip)
  · intro ip
    rw [same]
    exact records.all ip
  · intro ip
    rw [same]
    exact books.limited ip

/-- **Letting a socket in keeps the books**, when its peer has room under both limits. -/
theorem Books.admitted (books : Books config now maps history) {client : ConnectingSocket}
    (fresh : client.id ∉ (history.map Prod.fst).filterMap GatewayEvent.connecting?)
    (room : (connected history).countP (fun socket => socket.2 = getClientIp client) <
      config.maxConcurrentPerIp)
    {calls : List RateCall} {rates : ConnectionRates}
    (records : RecordsOf config now rates calls history)
    (few : (recordConnectionAttempt rates (getClientIp client) now config.windowMs).2 ≤
      config.maxAttemptsInWindow) :
    Books config now
      { connectionRates :=
          (recordConnectionAttempt rates (getClientIp client) now config.windowMs).1
        socketIps := maps.socketIps.set client.id (getClientIp client) }
      (history ++ [(.connection client now, true)]) := by
  have admission : ∀ ip, admissions ip [(.connection client now, true)] =
      ((RateCall.record (getClientIp client) now).attempt? ip).toList := by
    intro ip
    by_cases its : getClientIp client = ip <;> simp [admissions, admission?, RateCall.attempt?, its]
  refine ⟨?_, ?_, ⟨_, records.call (.record (getClientIp client) now) rfl ?_⟩, ?_⟩
  · have newKey : client.id ∉ maps.socketIps.keys := by
      intro mem
      rw [JsMap.keys, books.socketIps] at mem
      obtain ⟨socket, isConnected, same⟩ := List.mem_map.mp mem
      exact fresh (same ▸ connecting_of_connected isConnected)
    rw [connected_concat_admitted, ← books.socketIps]
    exact JsMap.put_of_fresh _ newKey
  · intro ip
    rw [connected_concat_admitted, List.countP_append]
    by_cases its : getClientIp client = ip
    · subst its
      simp only [List.countP_cons, List.countP_nil]
      simp
      omega
    · simpa [its] using books.concurrent ip
  · intro ip
    rw [admission]
  · intro ip before after t split_
    rw [admissions, List.filterMap_append, ← admissions, ← admissions, admission] at split_
    by_cases its : getClientIp client = ip
    · simp only [RateCall.attempt?, its, if_true, Option.toList_some] at split_
      rcases List.eq_nil_or_concat after with rfl | ⟨front, last, rfl⟩
      · -- this admission: what is recent of those before it was recorded
        obtain ⟨rfl, isNow⟩ := List.append_inj' split_ rfl
        cases isNow
        subst its
        exact (records.recent_admissions (getClientIp client)).trans few
      · rw [List.concat_eq_append, ← List.cons_append, ← List.append_assoc] at split_
        exact books.limited ip before front t (List.append_inj' split_ rfl).1
    · simp only [RateCall.attempt?, its, if_false, Option.toList_none, List.append_nil] at split_
      exact books.limited ip before after t split_

theorem Books.connection (books : Books config now maps history) (client : ConnectingSocket)
    (fresh : client.id ∉ (history.map Prod.fst).filterMap GatewayEvent.connecting?) :
    Books config now (handleConnection config maps client now).1
      (history ++ [(.connection client now, (handleConnection config maps client now).2)]) := by
  have ends : ∀ id, GatewayEvent.connection client now ≠ .disconnection id := by simp
  obtain ⟨calls, records⟩ := books.records
  have pruned := records.call_only (.prune now) rfl
  have recorded := pruned.call_only (.record (getClientIp client) now) rfl
  rw [handleConnection]
  by_cases full : config.maxConcurrentPerIp ≤
      countConcurrentConnections maps.socketIps.values (getClientIp client)
  · -- too many open sockets: nothing is recorded
    simp only [full, if_true]
    exact books.refused ends ⟨_, pruned⟩
  · simp only [full, if_false]
    have room : (connected history).countP (fun socket => socket.2 = getClientIp client) <
        config.maxConcurrentPerIp := by
      rw [countConcurrentConnections_eq, JsMap.values, List.countP_map, books.socketIps] at full
      exact Nat.lt_of_not_le full
    split
    · -- too many attempts: this one is recorded
      exact books.refused ends ⟨_, recorded⟩
    · next few => exact books.admitted fresh room pruned (Nat.le_of_not_lt few)

/-- **The run lemma**: the books are in order after every run whose clock does not go back and whose
sockets have ids of their own. -/
theorem books_gatewayRun (config : WebsocketRateLimitConfig) {events : List GatewayEvent}
    (distinct : (events.filterMap GatewayEvent.connecting?).Nodup)
    (clock : (events.filterMap GatewayEvent.clock?).Pairwise (· ≤ ·)) {now : Int}
    (passed : ∀ time ∈ events.filterMap GatewayEvent.clock?, time ≤ now) :
    Books config now (gatewayRun config events).1 (gatewayRun config events).2 ∧
      (gatewayRun config events).2.map Prod.fst = events := by
  induction events using List.reverseRecOn generalizing now with
  | nil => exact ⟨books_start config now, rfl⟩
  | append_singleton events event ih =>
    rw [List.filterMap_append, List.nodup_append] at distinct
    rw [List.filterMap_append, List.pairwise_append] at clock
    rw [gatewayRun_concat]
    have keepsEvents : ∀ {record : GatewayEvent × Bool}, record.1 = event →
        (gatewayRun config events).2.map Prod.fst = events →
        ((gatewayRun config events).2 ++ [record]).map Prod.fst = events ++ [event] := by
      intro record its same
      rw [List.map_append, same, List.map_singleton, its]
    cases event with
    | connection client time =>
      obtain ⟨books, same⟩ := ih distinct.1 clock.1 fun earlier mem =>
        clock.2.2 earlier mem time (by simp [GatewayEvent.clock?])
      have fresh : client.id ∉ ((gatewayRun config events).2.map Prod.fst).filterMap
          GatewayEvent.connecting? := by
        rw [same]
        intro mem
        exact distinct.2.2 _ mem client.id (by simp [GatewayEvent.connecting?]) rfl
      exact ⟨(books.connection client fresh).mono (passed time (by simp [GatewayEvent.clock?])),
        keepsEvents rfl same⟩
    | disconnection id =>
      obtain ⟨books, same⟩ := ih distinct.1 clock.1 fun earlier mem =>
        passed earlier (by simp [mem])
      exact ⟨books.disconnected id, keepsEvents rfl same⟩
    | cleanupTimer time =>
      obtain ⟨books, same⟩ := ih distinct.1 clock.1 fun earlier mem =>
        clock.2.2 earlier mem time (by simp [GatewayEvent.clock?])
      obtain ⟨calls, records⟩ := books.records
      have pruned := records.call_only (.prune time) rfl
      have ends : ∀ id, GatewayEvent.cleanupTimer time ≠ .disconnection id := by simp
      exact ⟨(books.refused ends ⟨_, pruned⟩).mono (passed time (by simp [GatewayEvent.clock?])),
        keepsEvents rfl same⟩

/-- **The admission limits hold over whole runs**: with sockets that have ids of their own and a clock
that does not go back, every address has at most `maxConcurrentPerIp` sockets connected at every
moment, and at most `maxAttemptsInWindow` were let in within any closed window. -/
theorem admission_limits (config : WebsocketRateLimitConfig) (events : List GatewayEvent)
    (distinct : (events.filterMap GatewayEvent.connecting?).Nodup)
    (clock : (events.filterMap GatewayEvent.clock?).Pairwise (· ≤ ·)) (ip : String) :
    (∀ past rest, events = past ++ rest →
      (connected (gatewayRun config past).2).countP (fun socket => socket.2 = ip) ≤
        config.maxConcurrentPerIp) ∧
    ∀ start : Int, ((admissions ip (gatewayRun config events).2).filter fun time =>
      decide (start ≤ time ∧ time ≤ start + config.windowMs)).length ≤ config.maxAttemptsInWindow := by
  -- a time that no event of the list is after
  have ended : ∀ l : List Int, ∃ now, ∀ time ∈ l, time ≤ now := by
    intro l
    induction l with
    | nil => exact ⟨0, by simp⟩
    | cons time l ih =>
      obtain ⟨now, passed⟩ := ih
      refine ⟨max time now, ?_⟩
      intro t mem
      rcases List.mem_cons.mp mem with rfl | mem
      · exact le_max_left _ _
      · exact (passed t mem).trans (le_max_right _ _)
  constructor
  · rintro past rest rfl
    rw [List.filterMap_append, List.nodup_append] at distinct
    rw [List.filterMap_append, List.pairwise_append] at clock
    obtain ⟨now, passed⟩ := ended (past.filterMap GatewayEvent.clock?)
    exact (books_gatewayRun config distinct.1 clock.1 passed).1.concurrent ip
  · obtain ⟨now, passed⟩ := ended (events.filterMap GatewayEvent.clock?)
    have books := (books_gatewayRun config distinct clock passed).1
    intro start
    exact windows_bounded (fun before t after => books.limited ip before after t) start

/-- One peer, one open socket, two attempts in a second. -/
def oneSocket : WebsocketRateLimitConfig where
  windowMs := 1000
  maxAttemptsInWindow := 2
  maxConcurrentPerIp := 1
  positive := by decide

/-- A second socket beside the first, and once more when the first is gone. -/
def reconnecting : List GatewayEvent :=
  [.connection ⟨"a", "203.0.113.10"⟩ 0, .connection ⟨"b", "203.0.113.10"⟩ 10, .disconnection "a",
    .cleanupTimer 500, .connection ⟨"c", "203.0.113.10"⟩ 1000, .disconnection "c",
    .connection ⟨"d", "203.0.113.10"⟩ 1000]

theorem admission_limits_reconnecting :
    admissions "203.0.113.10" (gatewayRun oneSocket reconnecting).2 = [0, 1000] ∧
      ∀ start : Int, ((admissions "203.0.113.10" (gatewayRun oneSocket reconnecting).2).filter
        fun time => decide (start ≤ time ∧ time ≤ start + oneSocket.windowMs)).length ≤ 2 :=
  ⟨by decide, (admission_limits oneSocket reconnecting (by decide) (by decide) "203.0.113.10").2⟩

end QuietStorage.Websocket
