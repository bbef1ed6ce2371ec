import QuietStorage.Lib.JsMap
import QuietStorage.Lib.SlidingWindow

/-!
# Websocket.RateLimit — the connection rates of the peers

`countConcurrentConnections`, `recordConnectionAttempt` and `pruneConnectionRates`, on the map from an
address to the times of its attempts. Both writers cut what is older than the window: `record` the
list of one address, `prune` all of them, dropping an address with nothing left.

A run is a list of calls, each with the clock it read. What a call answers is said in terms of all
that was ever recorded (`attempts`): the map is a cut of it that no later call can tell from the whole
(`Faithful`), whether or not it was pruned.
-/

set_option autoImplicit false

namespace QuietStorage.Websocket

open Lib Lib.SlidingWindow

/-- Client address → times of its connection attempts, in milliseconds. -/
abbrev ConnectionRates := JsMap String (List Int)

def countConcurrentConnections (socketIps : List String) (ip : String) : Nat :=
  socketIps.foldl (fun count socketIp => if socketIp = ip then count + 1 else count) 0

/-- The map with the attempt recorded, and how many there are in the window. -/
def recordConnectionAttempt (connectionRates : ConnectionRates) (ip : String) (now windowMs : Int) :
    ConnectionRates × Nat :=
  let windowStart := now - windowMs
  let recentTimestamps := recent windowStart ((connectionRates.get? ip).getD []) ++ [now]
  (connectionRates.set ip recentTimestamps, recentTimestamps.length)

/-- The loop writes only the entry it stands at, so it meets the entries that were there. -/
def pruneConnectionRates (connectionRates : ConnectionRates) (now windowMs : Int) :
    ConnectionRates :=
  let windowStart := now - windowMs
  connectionRates.entries.foldl
    (fun rates entry =>
      let recentTimestamps := recent windowStart entry.2
      if recentTimestamps.length = 0 then rates.delete entry.1
      else rates.set entry.1 recentTimestamps)
    connectionRates

theorem countConcurrentConnections_eq (socketIps : List String) (ip : String) :
    countConcurrentConnections socketIps ip = socketIps.countP fun socketIp => socketIp = ip := by
  have accumulated : ∀ (l : List String) (n : Nat),
      l.foldl (fun count socketIp => if socketIp = ip then count + 1 else count) n =
        n + l.countP fun socketIp => socketIp = ip := by
    intro l
    induction l with
    | nil => simp
    | cons socketIp l ih =>
      intro n
      rw [List.foldl_cons, ih, List.countP_cons]
      by_cases same : socketIp = ip
      · simp [same]
        omega
      · simp [same]
  rw [countConcurrentConnections, accumulated, Nat.zero_add]

/-! ## What the writers leave -/

/-- The times kept for an address. -/
def kept (rates : ConnectionRates) (ip : String) : List Int := (rates.get? ip).getD []

theorem kept_record (rates : ConnectionRates) (ip other : String) (now windowMs : Int) :
    kept (recordConnectionAttempt rates ip now windowMs).1 other =
      if other = ip then recent (now - windowMs) (kept rates ip) ++ [now] else kept rates other := by
  simp only [recordConnectionAttempt, kept, JsMap.get?_set]
  by_cases same : other = ip <;> simp [same]

/-- The count is one more than what is recent of what was kept. -/
theorem record_count (rates : ConnectionRates) (ip : String) (now windowMs : Int) :
    (recordConnectionAttempt rates ip now windowMs).2 =
      1 + (recent (now - windowMs) (kept rates ip)).length := by
  simp [recordConnectionAttempt, kept, Nat.add_comm]

/-- What pruning leaves for an address: what is recent, or no entry. -/
theorem get?_prune (rates : ConnectionRates) (now windowMs : Int) (ip : String) :
    (pruneConnectionRates rates now windowMs).get? ip =
      (rates.get? ip).bind fun timestamps =>
        if (recent (now - windowMs) timestamps).length = 0 then none
        else some (recent (now - windowMs) timestamps) := by
  -- entries that were passed are pruned, and those ahead are as they were
  have passed : ∀ (es : List (String × List Int)) (acc : ConnectionRates),
      (es.map Prod.fst).Nodup →
      (es.foldl (fun rates entry =>
          if (recent (now - windowMs) entry.2).length = 0 then rates.delete entry.1
          else rates.set entry.1 (recent (now - windowMs) entry.2)) acc).get? ip =
        match JsMap.find? ip es with
        | some timestamps =>
          if (recent (now - windowMs) timestamps).length = 0 then none
          else some (recent (now - windowMs) timestamps)
        | none => acc.get? ip := by
    intro es
    induction es with
    | nil => exact fun _ _ => rfl
    | cons entry es ih =>
      intro acc distinct
      rw [List.map_cons, List.nodup_cons] at distinct
      rw [List.foldl_cons, ih _ distinct.2]
      by_cases here : entry.1 = ip
      · have notAhead : JsMap.find? ip es = none := by
          cases found : JsMap.find? ip es with
          | none => rfl
          | some timestamps =>
            exact absurd (List.mem_map.mpr ⟨_, JsMap.mem_of_find? found, here.symm⟩) distinct.1
        simp only [JsMap.find?, here, if_true, notAhead]
        split
        · exact JsMap.get?_delete_self acc ip
        · exact JsMap.get?_set_self acc ip _
      · have elsewhere : ip ≠ entry.1 := fun same => here same.symm
        simp only [JsMap.find?, here, if_false]
        split
        · rfl
        · split
          · exact JsMap.get?_delete_of_ne acc elsewhere
          · exact JsMap.get?_set_of_ne acc _ elsewhere
  rw [pruneConnectionRates, passed _ _ rates.keysNodup]
  cases found : rates.get? ip with
  | none =>
    rw [JsMap.get?] at found
    simp [found]
  | some timestamps =>
    rw [JsMap.get?] at found
    simp [found]

theorem kept_prune (rates : ConnectionRates) (now windowMs : Int) (ip : String) :
    kept (pruneConnectionRates rates now windowMs) ip = recent (now - windowMs) (kept rates ip) := by
  unfold kept
  rw [get?_prune]
  cases rates.get? ip with
  | none => rfl
  | some timestamps =>
    by_cases stale : recent (now - windowMs) timestamps = []
    · simp [stale]
    · simp [stale]

/-- **A prune leaves exactly the addresses with a recent time.** -/
theorem mem_keys_prune (rates : ConnectionRates) (now windowMs : Int) (ip : String) :
    ip ∈ (pruneConnectionRates rates now windowMs).keys ↔
      recent (now - windowMs) (kept rates ip) ≠ [] := by
  rw [JsMap.mem_keys_iff, get?_prune]
  unfold kept
  cases rates.get? ip with
  | none => simp
  | some timestamps => simp [Option.bind]

/-! ## Runs -/

/-- A call, with the clock it was given. -/
inductive RateCall where
  | record (ip : String) (now : Int)
  | prune (now : Int)
  deriving DecidableEq, Repr

namespace RateCall

def now : RateCall → Int
  | .record _ now => now
  | .prune now => now

def isRecord : RateCall → Bool
  | .record _ _ => true
  | .prune _ => false

/-- The attempt of an address that a call records. -/
def attempt? (ip : String) : RateCall → Option Int
  | .record other now => if other = ip then some now else none
  | .prune _ => none

/-- The map a call leaves. -/
def apply (windowMs : Int) (rates : ConnectionRates) : RateCall → ConnectionRates
  | .record ip now => (recordConnectionAttempt rates ip now windowMs).1
  | .prune now => pruneConnectionRates rates now windowMs

end RateCall

/-- The map that a run leaves. -/
def ratesAfter (windowMs : Int) (rates : ConnectionRates) (calls : List RateCall) :
    ConnectionRates :=
  calls.foldl (RateCall.apply windowMs) rates

@[simp] theorem ratesAfter_concat (windowMs : Int) (rates : ConnectionRates) (calls : List RateCall)
    (call : RateCall) :
    ratesAfter windowMs rates (calls ++ [call]) = call.apply windowMs (ratesAfter windowMs rates calls) := by
  simp [ratesAfter]

/-- What the recording calls of a run return. -/
def counts (windowMs : Int) : ConnectionRates → List RateCall → List Nat
  | _, [] => []
  | rates, .record ip now :: calls =>
    let (rates, count) := recordConnectionAttempt rates ip now windowMs
    count :: counts windowMs rates calls
  | rates, .prune now :: calls => counts windowMs (pruneConnectionRates rates now windowMs) calls

/-- All times of an address: those the map had at the start, and every attempt recorded since. -/
def attempts (rates : ConnectionRates) (ip : String) (calls : List RateCall) : List Int :=
  kept rates ip ++ calls.filterMap (RateCall.attempt? ip)

/-- A map that no call from `now` on can tell from the full history. -/
def Faithful (windowMs now : Int) (rates : ConnectionRates) (history : String → List Int) : Prop :=
  ∀ ip, AgreeFrom (now - windowMs) (kept rates ip) (history ip)

namespace Faithful

variable {windowMs now : Int} {rates : ConnectionRates} {history : String → List Int}

theorem mono (faithful : Faithful windowMs now rates history) {later : Int} (le : now ≤ later) :
    Faithful windowMs later rates history := by
  intro ip
  apply (faithful ip).mono
  omega

/-- **The step lemma**: recording keeps the map faithful to the history that grows with it. -/
theorem record (faithful : Faithful windowMs now rates history) (ip : String) :
    Faithful windowMs now (recordConnectionAttempt rates ip now windowMs).1
      fun other => history other ++ ((RateCall.record ip now).attempt? other).toList := by
  intro other
  rw [kept_record]
  by_cases same : other = ip
  · subst same
    simpa [RateCall.attempt?] using ((AgreeFrom.cut _ _).trans (faithful other)).append [now]
  · have notIts : ¬ ip = other := fun eq => same eq.symm
    simpa [RateCall.attempt?, same, notIts] using faithful other

/-- **The step lemma**: pruning keeps the map faithful to the history that stays. -/
theorem prune (faithful : Faithful windowMs now rates history) :
    Faithful windowMs now (pruneConnectionRates rates now windowMs) history := by
  intro ip
  rw [kept_prune]
  exact (AgreeFrom.cut _ _).trans (faithful ip)

end Faithful

/-- **The run lemma**: after any run the map is faithful to all that was ever recorded. -/
theorem faithful_ratesAfter (windowMs : Int) (rates : ConnectionRates) {calls : List RateCall}
    (clock : (calls.map RateCall.now).Pairwise (· ≤ ·)) {now : Int}
    (passed : ∀ call ∈ calls, call.now ≤ now) :
    Faithful windowMs now (ratesAfter windowMs rates calls) fun ip => attempts rates ip calls := by
  induction calls using List.reverseRecOn generalizing now with
  | nil =>
    intro ip
    simpa [attempts, ratesAfter] using AgreeFrom.refl _ (kept rates ip)
  | append_singleton calls call ih =>
    rw [List.map_append, List.pairwise_append] at clock
    have earlier : ∀ c ∈ calls, c.now ≤ call.now := by
      intro c mem
      exact clock.2.2 c.now (List.mem_map_of_mem mem) call.now (by simp)
    have before := ih clock.1 earlier
    have grown : (fun ip => attempts rates ip (calls ++ [call])) =
        fun ip => attempts rates ip calls ++ (call.attempt? ip).toList := by
      funext ip
      cases attempted : call.attempt? ip <;> simp [attempts, attempted]
    rw [grown]
    apply Faithful.mono _ (passed call (by simp))
    rw [ratesAfter_concat]
    cases call with
    | record ip now => exact before.record ip
    | prune now => simpa [RateCall.attempt?, RateCall.apply, RateCall.now] using before.prune

/-- Maps that no call can tell apart answer a run with the same counts, one pruned and one not. -/
theorem counts_filter {windowMs now : Int} {calls : List RateCall} {rates full : ConnectionRates}
    (clock : (calls.map RateCall.now).Pairwise (· ≤ ·)) (ahead : ∀ call ∈ calls, now ≤ call.now)
    (faithful : Faithful windowMs now rates (kept full)) :
    counts windowMs rates calls = counts windowMs full (calls.filter RateCall.isRecord) := by
  induction calls generalizing now rates full with
  | nil => rfl
  | cons call calls ih =>
    rw [List.map_cons, List.pairwise_cons] at clock
    have later : ∀ c ∈ calls, call.now ≤ c.now := fun c mem => clock.1 _ (List.mem_map_of_mem mem)
    have here := faithful.mono (ahead call List.mem_cons_self)
    cases call with
    | record ip time =>
      have both : Faithful windowMs time (recordConnectionAttempt rates ip time windowMs).1
          (kept (recordConnectionAttempt full ip time windowMs).1) := by
        intro other start le
        have whole : Faithful windowMs time full (kept full) := fun ip => AgreeFrom.refl _ _
        have grown := whole.record ip
        exact (here.record ip other start le).trans (grown other start le).symm
      have sameCount : (recordConnectionAttempt rates ip time windowMs).2 =
          (recordConnectionAttempt full ip time windowMs).2 := by
        rw [record_count, record_count, here ip (time - windowMs) (le_refl _)]
      simp only [counts, List.filter_cons, RateCall.isRecord, if_true]
      rw [sameCount, ih clock.2 later both]
    | prune time =>
      simp only [counts, List.filter_cons, RateCall.isRecord, Bool.false_eq_true, if_false]
      exact ih clock.2 later here.prune

/-- **Pruning is invisible**: in every run whose clock does not go back, from every map, the recording
calls return what they return with every prune removed, which is one more than the times of the
address that are in the window; and a prune leaves exactly the addresses with such a time. -/
theorem pruning_invisible (windowMs : Int) (rates : ConnectionRates) (calls : List RateCall)
    (clock : (calls.map RateCall.now).Pairwise (· ≤ ·)) :
    counts windowMs rates calls = counts windowMs rates (calls.filter RateCall.isRecord) ∧
    (∀ before ip now after, calls = before ++ .record ip now :: after →
      (recordConnectionAttempt (ratesAfter windowMs rates before) ip now windowMs).2 =
        1 + (attempts rates ip before).countP fun t => now - windowMs ≤ t) ∧
    ∀ before now after, calls = before ++ .prune now :: after → ∀ ip,
      ip ∈ (ratesAfter windowMs rates (before ++ [.prune now])).keys ↔
        ∃ t ∈ attempts rates ip before, now - windowMs ≤ t := by
  have faithfulAt : ∀ before call after, calls = before ++ call :: after →
      Faithful windowMs call.now (ratesAfter windowMs rates before)
        fun ip => attempts rates ip before := by
    rintro before call after rfl
    rw [List.map_append, List.pairwise_append] at clock
    apply faithful_ratesAfter windowMs rates clock.1
    intro c mem
    exact clock.2.2 c.now (List.mem_map_of_mem mem) call.now (by simp)
  refine ⟨?_, ?_, ?_⟩
  · cases calls with
    | nil => rfl
    | cons call calls =>
      have fromHere : ∀ c ∈ call :: calls, call.now ≤ c.now := by
        intro c mem
        rcases List.mem_cons.mp mem with rfl | mem
        · exact le_refl _
        · rw [List.map_cons, List.pairwise_cons] at clock
          exact clock.1 _ (List.mem_map_of_mem mem)
      exact counts_filter clock fromHere fun ip => AgreeFrom.refl _ _
  · intro before ip now after split_
    rw [record_count, faithfulAt before _ after split_ ip (now - windowMs) (le_refl _), recent,
      List.countP_eq_length_filter]
  · intro before now after split_ ip
    have agree := faithfulAt before _ after split_ ip (now - windowMs) (le_refl _)
    rw [ratesAfter_concat, RateCall.apply, mem_keys_prune, agree, ne_eq,
      List.eq_nil_iff_forall_not_mem]
    simp

/-- The second attempt of the address counts the initial one that is on the edge of the window and
not the one before it, pruned or not. -/
theorem pruning_invisible_edge :
    counts 1000 ⟨[("203.0.113.10", [4999, 5000])], by decide⟩
        [.prune 5500, .record "203.0.113.10" 6000] = [2] ∧
      counts 1000 ⟨[("203.0.113.10", [4999, 5000])], by decide⟩
        [.prune 5500, .record "203.0.113.10" 6000] =
        counts 1000 ⟨[("203.0.113.10", [4999, 5000])], by decide⟩
          ([.prune 5500, .record "203.0.113.10" 6000].filter RateCall.isRecord) :=
  ⟨by decide, (pruning_invisible 1000 _ _ (by decide)).1⟩

end QuietStorage.Websocket
