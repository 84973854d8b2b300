import MonascaNotification.Infra.Except
import MonascaNotification.Spec.Sending
import MonascaNotification.Model.Engines

/-!
# What an engine knows before it sends

The runs of `construct_notification_object`, of `_keep_sending` and of the wait: which queries
they make, and what their results say about the answers.

A document that an engine wrote decodes to the notification it was written from, except for
the timestamp (`decodeNotification_toJson`). This is where the derived slots of the structure
are used: the constructor recomputes them from the raw alarm.
-/

namespace MonascaNotification

open Infra Prog

variable {P : Platform} {conf : Config}

/-! ## Documents -/

theorem Notification.init_eq (n : Notification P) :
    Notification.init P n.id n.type n.name n.address n.period n.retryCount n.rawAlarm =
      .ok { n with notificationTimestamp := .null } := by
  unfold Notification.init
  split
  · next slots h =>
    have hslots : slots = n.toAlarmSlots := by
      rw [n.derived] at h
      cases h
      rfl
    subst hslots
    rfl
  · next x h =>
    rw [n.derived] at h
    cases h

@[simp] theorem decodeNotification_toJson (n : Notification P) :
    decodeNotification P n.toJson = .ok { n with notificationTimestamp := .null } := by
  simp [decodeNotification, Notification.toJson, Json.getItem, List.lookup_cons,
    ← Notification.init_eq n]

@[simp] theorem getItem_toJson_timestamp (n : Notification P) :
    n.toJson.getItem "notification_timestamp" = .ok n.notificationTimestamp := by
  simp [Notification.toJson, Json.getItem, List.lookup_cons]

/-! ## The stored method -/

/-- The one or two queries for a method, and the answer that counts. -/
inductive StoredAnswer (P : Platform) (id : Json) (answer : Except PyExn (Option (List Json))) :
    PyTrace P → Prop where
  | first : answer ≠ .error .databaseException →
      StoredAnswer P id answer [⟨.getNotification id, answer⟩]
  | second : StoredAnswer P id answer
      [⟨.getNotification id, (.error .databaseException : Except PyExn (Option (List Json)))⟩,
       ⟨.getNotification id, answer⟩]

theorem StoredAnswer.quiet {id : Json} {answer : Except PyExn (Option (List Json))}
    {tr : PyTrace P} (h : StoredAnswer P id answer tr) : Quiet tr := by
  cases h <;> simp [Effect.Silent]

theorem StoredAnswer.mem {id : Json} {answer : Except PyExn (Option (List Json))}
    {tr : PyTrace P} (h : StoredAnswer P id answer tr) :
    (⟨.getNotification id, answer⟩ : PyEvent P) ∈ tr := by
  cases h <;> simp

/-- An answer in the queries is the one that counts, or the exception before it. -/
theorem StoredAnswer.eq_of_mem {id id' : Json} {answer r : Except PyExn (Option (List Json))}
    {tr : PyTrace P} (h : StoredAnswer P id answer tr)
    (hmem : (⟨.getNotification id', r⟩ : PyEvent P) ∈ tr) :
    r = .error .databaseException ∨ r = answer := by
  cases h with
  | first _ =>
    rw [List.mem_singleton] at hmem
    cases hmem
    exact Or.inr rfl
  | second =>
    rcases List.mem_cons.mp hmem with hmem | hmem
    · cases hmem
      exact Or.inl rfl
    · rw [List.mem_singleton] at hmem
      cases hmem
      exact Or.inr rfl

theorem runs_getNotification {id : Json} {tr : PyTrace P}
    {out : Except PyExn (Option (List Json))} :
    Runs (getNotification id) tr out ↔ tr = [⟨.getNotification id, out⟩] := by
  constructor
  · rintro ⟨answer, tr', rfl, h⟩
    rw [runs_ofExcept] at h
    obtain ⟨rfl, rfl⟩ := h
    rfl
  · rintro rfl
    exact ⟨out, [], rfl, runs_ofExcept.mpr ⟨rfl, rfl⟩⟩

theorem runs_grabStoredNotificationMethod {id : Json} {tr : PyTrace P}
    {out : Except PyExn (Option (List Json))} :
    Runs (grabStoredNotificationMethod id) tr out ↔ StoredAnswer P id out tr := by
  rw [grabStoredNotificationMethod, Py.runs_retryOnDatabaseException]
  simp only [runs_getNotification]
  constructor
  · rintro (⟨rfl, hne⟩ | ⟨tr₁, tr₂, rfl, rfl, rfl⟩)
    · exact .first hne
    · exact .second
  · rintro (hne | _)
    · exact Or.inl ⟨rfl, hne⟩
    · exact Or.inr ⟨_, _, rfl, rfl, rfl⟩

/-! ## `construct_notification_object` -/

/-- What the engine goes on with, after the queries on the trace, for a decoded notification. -/
inductive Refreshed (n : Notification P) : PyTrace P → Option (Notification P) → Prop where
  | deleted {tr} : StoredAnswer P n.id (.ok none) tr → Refreshed n tr none
  | stored {tr name type address period rest} :
      StoredAnswer P n.id (.ok (some (name :: type :: address :: period :: rest))) tr →
      Refreshed n tr (some { n with name, type, address, period })
  | cached {tr} : StoredAnswer P n.id (.error .databaseException) tr → Refreshed n tr (some n)
  | shortRow {tr row} : StoredAnswer P n.id (.ok (some row)) tr → row.length < 4 →
      Refreshed n tr none
  | failed {tr x} : StoredAnswer P n.id (.error x) tr → x ≠ .databaseException →
      Refreshed n tr none

theorem Refreshed.quiet {n : Notification P} {tr : PyTrace P} {r : Option (Notification P)}
    (h : Refreshed n tr r) : Quiet tr := by
  cases h with
  | deleted h => exact h.quiet
  | stored h => exact h.quiet
  | cached h => exact h.quiet
  | shortRow h _ => exact h.quiet
  | failed h _ => exact h.quiet

/-- Refreshing changes the method, and neither its id, nor the alarm, nor the count. -/
theorem Refreshed.some {n m : Notification P} {tr : PyTrace P}
    (h : Refreshed n tr (some m)) : m.id = n.id ∧ m.rawAlarm = n.rawAlarm ∧
      m.retryCount = n.retryCount ∧ m.toAlarmSlots = n.toAlarmSlots := by
  cases h with
  | stored _ => exact ⟨rfl, rfl, rfl, rfl⟩
  | cached _ => exact ⟨rfl, rfl, rfl, rfl⟩

/-- The method of the document is looked up, and nothing else is done. -/
theorem asksMethod_constructNotificationObject {S : Effect P → Prop} {data : Json}
    (h : ∀ n : Notification P, decodeNotification P data = .ok n → S (.getNotification n.id)) :
    Uses S (constructNotificationObject data : Py P (Option (Notification P))) := by
  unfold constructNotificationObject
  split
  · trivial
  · next n hn =>
    have hget : Uses S (getNotification n.id : Py P _) := ⟨h n hn, fun _ => by simp⟩
    refine uses_tryCatch (uses_bind (Py.uses_retryOnDatabaseException hget) fun r => ?_)
      fun x => ?_
    · split
      · trivial
      · exact uses_bind (by simp) fun _ => trivial
    · split <;> trivial

theorem asks_constructNotificationObject (data : Json) :
    Uses (fun e => e.isQuery = true)
      (constructNotificationObject data : Py P (Option (Notification P))) :=
  asksMethod_constructNotificationObject fun _ _ => rfl

theorem uses_constructNotificationObject (data : Json) :
    Uses Effect.Silent (constructNotificationObject data : Py P (Option (Notification P))) :=
  (asks_constructNotificationObject data).mono fun _ => Effect.isQuery.silent

/-- The rest of the `try` block, after the answer. -/
def Notification.update (n : Notification P) :
    Option (List Json) → Except PyExn (Option (Notification P))
  | none => .ok none
  | some stored => (n.refresh stored).map some

/-- What the engine goes on with after an answer: `n`, `n` with the stored method, or nothing. -/
def Notification.answered (n : Notification P) (answer : Except PyExn (Option (List Json))) :
    Option (Notification P) :=
  recover (fun x => if x = .databaseException then some n else none) (answer.bind n.update)

@[simp] theorem Notification.answered_none (n : Notification P) :
    n.answered (.ok none) = none := rfl

@[simp] theorem Notification.answered_row (n : Notification P)
    (name type address period : Json) (rest : List Json) :
    n.answered (.ok (some (name :: type :: address :: period :: rest))) =
      some { n with name, type, address, period } := rfl

/-- A row that is too short is an `IndexError`: what was assigned before it is dropped. -/
theorem Notification.answered_short (n : Notification P) {row : List Json}
    (h : row.length < 4) : n.answered (.ok (some row)) = none := by
  match row with
  | [] => rfl
  | [_] => rfl
  | [_, _] => rfl
  | [_, _, _] => rfl
  | _ :: _ :: _ :: _ :: _ =>
    simp only [List.length_cons] at h
    omega

/-- A row with four columns has a method in front. -/
theorem exists_method {row : List Json} (h : ¬ row.length < 4) :
    ∃ name type address period rest, row = name :: type :: address :: period :: rest := by
  obtain ⟨name, row, rfl⟩ := List.exists_cons_of_ne_nil (l := row) (by rintro rfl; simp at h)
  obtain ⟨type, row, rfl⟩ := List.exists_cons_of_ne_nil (l := row) (by rintro rfl; simp at h)
  obtain ⟨address, row, rfl⟩ := List.exists_cons_of_ne_nil (l := row) (by rintro rfl; simp at h)
  obtain ⟨period, row, rfl⟩ := List.exists_cons_of_ne_nil (l := row) (by rintro rfl; simp at h)
  exact ⟨name, type, address, period, row, rfl⟩

theorem Notification.answered_error (n : Notification P) (x : PyExn) :
    n.answered (.error x) = if x = .databaseException then some n else none := rfl

theorem constructNotificationObject_eq {data : Json} {n : Notification P}
    (hdec : decodeNotification P data = .ok n) : constructNotificationObject data =
      ((grabStoredNotificationMethod n.id).bind fun row? => .ofExcept (n.update row?)).tryCatch
        fun x => .ret (if x = .databaseException then some n else none) := by
  unfold constructNotificationObject
  rw [hdec]
  show (Prog.bind _ _).tryCatch _ = _
  congr 1
  · congr 1
    funext row?
    cases row? with
    | none => rfl
    | some stored =>
      show Prog.bind (.ofExcept (n.refresh stored)) _ = .ofExcept ((n.refresh stored).map some)
      cases n.refresh stored <;> rfl
  · funext x
    split <;> rfl

/--
**What `construct_notification_object` does.** It raises nothing: what cannot be decoded is
dropped without a query, and otherwise the answer that counts decides.
-/
theorem runs_constructNotificationObject_iff {data : Json} {tr : PyTrace P}
    {out : Except PyExn (Option (Notification P))} :
    Runs (constructNotificationObject data) tr out ↔ match decodeNotification P data with
      | .error _ => tr = [] ∧ out = .ok none
      | .ok n => ∃ answer, StoredAnswer P n.id answer tr ∧ out = .ok (n.answered answer) := by
  cases hdec : decodeNotification P data with
  | error x =>
    unfold constructNotificationObject
    rw [hdec]
    exact Iff.rfl
  | ok n =>
    rw [constructNotificationObject_eq hdec, runs_tryCatch_ret]
    simp only [runs_bind_ofExcept, runs_grabStoredNotificationMethod]
    constructor
    · rintro ⟨_, ⟨answer, hgrab, rfl⟩, rfl⟩
      exact ⟨answer, hgrab, rfl⟩
    · rintro ⟨answer, hgrab, rfl⟩
      exact ⟨_, ⟨answer, hgrab, rfl⟩, rfl⟩

theorem runs_constructNotificationObject {data : Json} {n : Notification P}
    (hdec : decodeNotification P data = .ok n) {tr : PyTrace P} {r : Option (Notification P)}
    (h : Runs (constructNotificationObject data) tr (.ok r)) : Refreshed n tr r := by
  rw [runs_constructNotificationObject_iff, hdec] at h
  obtain ⟨answer, hgrab, hr⟩ := h
  cases hr
  cases answer with
  | ok row? =>
    cases row? with
    | none => exact .deleted hgrab
    | some row =>
      by_cases hshort : row.length < 4
      · rw [Notification.answered_short n hshort]
        exact .shortRow hgrab hshort
      · obtain ⟨name, type, address, period, rest, rfl⟩ := exists_method hshort
        exact .stored hgrab
  | error x =>
    rw [Notification.answered_error]
    split
    · next hx =>
      subst hx
      exact .cached hgrab
    · next hx => exact .failed hgrab hx

/-! ## The wait -/

/-- One look at the clock, and at most one sleep. -/
inductive Waited : PyTrace P → Prop where
  | elapsed {now} : Waited [⟨.time, now⟩]
  | slept {now q} : Waited [⟨.time, now⟩, ⟨.sleep q, ()⟩]

theorem Waited.quiet {tr : PyTrace P} (h : Waited tr) : Quiet tr := by
  cases h <;> simp [Effect.Silent]

theorem uses_waitDuration (bound data : Json) :
    Uses Effect.Silent (waitDuration bound data : Py P PyFloat) := by
  refine uses_bind Py.uses_time fun now => uses_bind (by simp) fun stamp => ?_
  exact uses_bind (by simp) fun stamp' => uses_bind (by simp) fun bound' => trivial

theorem uses_waitFor (duration : PyFloat) :
    Uses Effect.Silent (waitFor duration : Py P Unit) := by
  unfold waitFor
  split
  · exact Py.uses_sleep (fun _ => trivial) _
  · trivial

/-- What is left of a wait of `bound` seconds at the reading `now`, by the timestamp of `data`. -/
def waitLeft (P : Platform) (bound data : Json) (now : Rat) : Except PyExn PyFloat := do
  let stamp ← data.getItem "notification_timestamp"
  let stamp ← stamp.toFloat P
  let bound ← bound.toFloat P
  return P.sub bound (P.sub (.fin now) stamp)

theorem waitDuration_eq (bound data : Json) : (waitDuration bound data : Py P PyFloat) =
    Py.time.bind fun now => .ofExcept (waitLeft P bound data now) := by
  show Prog.bind Py.time _ = _
  congr 1
  funext now
  unfold waitLeft
  cases data.getItem "notification_timestamp" with
  | error x => rfl
  | ok stamp =>
    show Prog.bind (.ofExcept (stamp.toFloat P)) _ = .ofExcept (stamp.toFloat P >>= _)
    cases stamp.toFloat P with
    | error x => rfl
    | ok stamp =>
      show Prog.bind (.ofExcept (bound.toFloat P)) _ = .ofExcept (bound.toFloat P >>= _)
      cases bound.toFloat P <;> rfl

theorem runs_waitDuration_iff {bound data : Json} {tr : PyTrace P} {out : Except PyExn PyFloat} :
    Runs (waitDuration bound data) tr out ↔
      ∃ now, tr = [⟨.time, now⟩] ∧ out = waitLeft P bound data now := by
  rw [waitDuration_eq, runs_bind_ofExcept]
  constructor
  · rintro ⟨_, ⟨now, _, rfl, rfl, rfl⟩, rfl⟩
    exact ⟨now, rfl, rfl⟩
  · rintro ⟨now, rfl, rfl⟩
    exact ⟨.ok now, ⟨now, [], rfl, rfl, rfl⟩, rfl⟩

theorem runs_waitDuration {bound data : Json} {tr : PyTrace P} {duration : PyFloat}
    (h : Runs (waitDuration bound data) tr (.ok duration)) :
    ∃ now, tr = [⟨.time, now⟩] := by
  obtain ⟨now, rfl, -⟩ := runs_waitDuration_iff.mp h
  exact ⟨now, rfl⟩

theorem runs_waitFor {duration : PyFloat} {tr : PyTrace P}
    (h : Runs (waitFor duration) tr (.ok ())) : tr = [] ∨ ∃ q, tr = [⟨.sleep q, ()⟩] := by
  unfold waitFor at h
  split at h
  · unfold Py.sleep at h
    split at h
    · next q hq =>
      obtain ⟨u, tr', rfl, rfl, -⟩ := h
      exact Or.inr ⟨q, rfl⟩
    · cases h.2
  · exact Or.inl h.1

/-- A look at the clock, and a sleep for what is left of the wait, if anything is. -/
inductive WaitedFor (P : Platform) (bound data : Json) : PyTrace P → Prop where
  | elapsed {now duration} : waitLeft P bound data now = .ok duration →
      duration.gtInt 0 = false → WaitedFor P bound data [⟨.time, now⟩]
  | slept {now q} : waitLeft P bound data now = .ok (.fin q) → 0 < q →
      WaitedFor P bound data [⟨.time, now⟩, ⟨.sleep q, ()⟩]

/-- An effect of a wait and what follows it: the look at the clock, the sleep, or a later one. -/
theorem performs_wait {α : Type} {bound data : Json} {k : Py P α} {tr : PyTrace P} {e : Effect P}
    (h : Prog.Performs (do
      let duration ← waitDuration bound data
      waitFor duration
      k : Py P α) tr e) :
    e = .time ∨
      (∃ now q, tr = [⟨.time, now⟩] ∧ e = .sleep q ∧ waitLeft P bound data now = .ok (.fin q)) ∨
      ∃ tr₁ tr₂, tr = tr₁ ++ tr₂ ∧ WaitedFor P bound data tr₁ ∧ Prog.Performs k tr₂ e := by
  replace h := performs_bind.mp h
  rcases h with h | ⟨tr₁, tr₂, duration, rfl, hdur, h⟩
  · rw [waitDuration_eq] at h
    rcases performs_bind.mp h with h | ⟨_, _, _, -, -, h⟩
    · rcases h with ⟨-, rfl⟩ | ⟨_, _, -, h⟩
      · exact Or.inl rfl
      · cases h
    · exact absurd h performs_ofExcept
  obtain ⟨now, rfl, hleft⟩ := runs_waitDuration_iff.mp hdur
  replace h := performs_bind.mp h
  by_cases hpos : duration.gtInt 0 = true
  · simp only [waitFor, hpos, if_true, Py.sleep] at h
    split at h
    · next q hq =>
      obtain rfl := P.sleepDuration_eq_ok hq
      rcases h with (⟨rfl, rfl⟩ | ⟨_, _, -, h⟩) | ⟨tr₃, tr₄, _, rfl, ⟨_, _, rfl, rfl, -⟩, h⟩
      · exact Or.inr (Or.inl ⟨now, q, rfl, rfl, hleft.symm⟩)
      · cases h
      · refine Or.inr (Or.inr ⟨_, tr₄, rfl, .slept hleft.symm ?_, h⟩)
        simpa [PyFloat.gtInt] using hpos
    · rcases h with h | ⟨_, _, _, -, hraise, -⟩
      · cases h
      · cases hraise.2
  · simp only [waitFor, hpos] at h
    rcases h with h | ⟨tr₃, tr₄, _, rfl, ⟨rfl, -⟩, h⟩
    · cases h
    · exact Or.inr (Or.inr ⟨_, tr₄, rfl, .elapsed hleft.symm (by simpa using hpos), h⟩)

/-- What is slept at the reading `now`, if anything is left of the wait. -/
def waitSlept (P : Platform) (bound data : Json) (now : Rat) : Except PyExn (Option Rat) := do
  let duration ← waitLeft P bound data now
  if duration.gtInt 0 then
    let q ← P.sleepDuration duration
    return some q
  return none

/-- The look at the clock, and the sleep. -/
def waitTrace (now : Rat) (slept : Option Rat) : PyTrace P :=
  ⟨.time, now⟩ :: slept.toList.map fun q => ⟨.sleep q, ()⟩

/-- A wait is one look at the clock, and what is left is slept. -/
theorem wait_eq {α : Type} {bound data : Json} {k : Py P α} :
    (do
      let duration ← waitDuration bound data
      waitFor duration
      k : Py P α) = Py.time.bind fun now => (Prog.ofExcept (waitSlept P bound data now)).bind
        fun slept => match slept with
          | some q => .perform (.sleep q) fun _ => k
          | none => k := by
  rw [bind_eq, waitDuration_eq, bind_assoc]
  congr 1
  funext now
  unfold waitSlept
  cases waitLeft P bound data now with
  | error x => rfl
  | ok duration =>
    rw [ok_bind]
    show Prog.bind (waitFor duration) _ = _
    unfold waitFor
    cases duration.gtInt 0 with
    | false => rfl
    | true =>
      show Prog.bind (Py.sleep duration) _ =
        Prog.bind (.ofExcept (P.sleepDuration duration >>= _)) _
      unfold Py.sleep
      cases P.sleepDuration duration <;> rfl

/-- A wait and what follows it. The wait raises when it is not computed, or refused. -/
theorem runs_wait {α : Type} {bound data : Json} {k : Py P α} {tr : PyTrace P}
    {out : Except PyExn α} :
    Runs (do
      let duration ← waitDuration bound data
      waitFor duration
      k : Py P α) tr out ↔
    ∃ now, (∃ x, waitSlept P bound data now = .error x ∧ tr = [⟨.time, now⟩] ∧ out = .error x) ∨
      ∃ slept tr', waitSlept P bound data now = .ok slept ∧ tr = waitTrace now slept ++ tr' ∧
        Runs k tr' out := by
  rw [wait_eq]
  constructor
  · rintro ⟨now, tr', rfl, h⟩
    refine ⟨now, ?_⟩
    replace h : Runs ((Prog.ofExcept (waitSlept P bound data now)).bind _) tr' out := h
    cases hslept : waitSlept P bound data now with
    | error x =>
      rw [hslept] at h
      obtain ⟨rfl, rfl⟩ := h
      exact Or.inl ⟨x, rfl, rfl, rfl⟩
    | ok slept =>
      rw [hslept] at h
      cases slept with
      | none => exact Or.inr ⟨none, tr', rfl, rfl, h⟩
      | some q =>
        obtain ⟨_, tr'', rfl, h⟩ := h
        exact Or.inr ⟨some q, tr'', rfl, rfl, h⟩
  · rintro ⟨now, ⟨x, hslept, rfl, rfl⟩ | ⟨slept, tr', hslept, rfl, h⟩⟩
    · refine ⟨now, [], rfl, ?_⟩
      show Runs ((Prog.ofExcept (waitSlept P bound data now)).bind _) [] _
      rw [hslept]
      exact ⟨rfl, rfl⟩
    · cases slept with
      | none =>
        refine ⟨now, tr', rfl, ?_⟩
        show Runs ((Prog.ofExcept (waitSlept P bound data now)).bind _) _ _
        rw [hslept]
        exact h
      | some q =>
        refine ⟨now, ⟨.sleep q, ()⟩ :: tr', rfl, ?_⟩
        show Runs ((Prog.ofExcept (waitSlept P bound data now)).bind _) _ _
        rw [hslept]
        exact ⟨(), tr', rfl, h⟩

theorem waited {bound data : Json} {duration : PyFloat} {tr₁ tr₂ : PyTrace P}
    (h₁ : Runs (waitDuration bound data) tr₁ (.ok duration))
    (h₂ : Runs (waitFor duration) tr₂ (.ok ())) : Waited (tr₁ ++ tr₂) := by
  obtain ⟨now, rfl⟩ := runs_waitDuration h₁
  rcases runs_waitFor h₂ with rfl | ⟨q, rfl⟩
  · exact .elapsed
  · exact .slept

/-! ## `_keep_sending` -/

namespace PeriodicEngine

/-- The one or two queries for the state of an alarm, and the answer that counts. -/
inductive StateAnswer (P : Platform) (alarmId : Json) (answer : Option String) :
    PyTrace P → Prop where
  | first : StateAnswer P alarmId answer
      [⟨.getAlarmCurrentState alarmId, (.ok answer : Except PyExn (Option String))⟩]
  | second : StateAnswer P alarmId answer
      [⟨.getAlarmCurrentState alarmId,
          (.error .databaseException : Except PyExn (Option String))⟩,
       ⟨.getAlarmCurrentState alarmId, (.ok answer : Except PyExn (Option String))⟩]

theorem StateAnswer.quiet {alarmId : Json} {answer : Option String} {tr : PyTrace P}
    (h : StateAnswer P alarmId answer tr) : Quiet tr := by
  cases h <;> simp [Effect.Silent]

theorem StateAnswer.mem {alarmId : Json} {answer : Option String} {tr : PyTrace P}
    (h : StateAnswer P alarmId answer tr) :
    (⟨.getAlarmCurrentState alarmId, (.ok answer : Except PyExn (Option String))⟩ : PyEvent P)
      ∈ tr := by
  cases h <;> simp

theorem StateAnswer.eq_of_mem {alarmId alarmId' : Json} {answer : Option String}
    {r : Except PyExn (Option String)} {tr : PyTrace P} (h : StateAnswer P alarmId answer tr)
    (hmem : (⟨.getAlarmCurrentState alarmId', r⟩ : PyEvent P) ∈ tr) :
    r = .error .databaseException ∨ r = .ok answer := by
  cases h with
  | first =>
    rw [List.mem_singleton] at hmem
    cases hmem
    exact Or.inr rfl
  | second =>
    rcases List.mem_cons.mp hmem with hmem | hmem
    · cases hmem
      exact Or.inl rfl
    · rw [List.mem_singleton] at hmem
      cases hmem
      exact Or.inr rfl

/-- Whether a chain goes on: the alarm is there in the same state, and the period is ours. -/
def goesOn (self : PeriodicEngine conf) (current : Option String) (originalState period : Json) :
    Prop :=
  (∃ st, current = some st ∧ Json.str st = originalState) ∧ period.eqInt self.period = true

instance (self : PeriodicEngine conf) (current : Option String) (originalState period : Json) :
    Decidable (self.goesOn current originalState period) :=
  match current with
  | none => isFalse (by rintro ⟨⟨st, h, -⟩, -⟩; cases h)
  | some st => decidable_of_iff
      (Json.str st = originalState ∧ period.eqInt self.period = true) (by simp [goesOn])

/-- The queries come first, and the check is about their answer. -/
theorem keepSending_eq (self : PeriodicEngine conf) (alarmId originalState period : Json) :
    (self.keepSending alarmId originalState period : Py P Bool) =
      (Py.retryOnDatabaseException (getAlarmCurrentState alarmId)).bind fun current =>
        .ret (decide (self.goesOn current originalState period)) := by
  show Prog.bind _ _ = _
  congr 1
  funext current
  cases current with
  | none =>
    refine congrArg Prog.ret (decide_eq_false ?_).symm
    rintro ⟨⟨st, hst, -⟩, -⟩
    cases hst
  | some st =>
    dsimp only
    split
    · next hstate => exact congrArg Prog.ret (decide_eq_false (by simp [goesOn, hstate])).symm
    · next hstate =>
      have hstate : Json.str st = originalState := by simpa using hstate
      split
      · next hperiod =>
        have hperiod : period.eqInt self.period = false := by simpa using hperiod
        exact congrArg Prog.ret (decide_eq_false (by simp [goesOn, hperiod])).symm
      · next hperiod =>
        have hperiod : period.eqInt self.period = true := by simpa using hperiod
        exact congrArg Prog.ret (decide_eq_true (by simp [goesOn, hstate, hperiod])).symm

/-- The state of the alarm is asked for, and nothing else is done. -/
theorem asksState_keepSending {S : Effect P → Prop} (self : PeriodicEngine conf)
    {alarmId originalState period : Json} (h : S (.getAlarmCurrentState alarmId)) :
    Uses S (self.keepSending alarmId originalState period : Py P Bool) := by
  rw [keepSending_eq]
  exact uses_bind (Py.uses_retryOnDatabaseException ⟨h, fun _ => by simp⟩) fun _ => trivial

theorem asks_keepSending (self : PeriodicEngine conf) (alarmId originalState period : Json) :
    Uses (fun e => e.isQuery = true)
      (self.keepSending alarmId originalState period : Py P Bool) :=
  asksState_keepSending self rfl

theorem uses_keepSending (self : PeriodicEngine conf) (alarmId originalState period : Json) :
    Uses Effect.Silent (self.keepSending alarmId originalState period : Py P Bool) :=
  (asks_keepSending self alarmId originalState period).mono fun _ => Effect.isQuery.silent

theorem runs_getAlarmCurrentState {alarmId : Json} {tr : PyTrace P}
    {out : Except PyExn (Option String)} :
    Runs (getAlarmCurrentState alarmId) tr out ↔ tr = [⟨.getAlarmCurrentState alarmId, out⟩] := by
  constructor
  · rintro ⟨answer, tr', rfl, h⟩
    rw [runs_ofExcept] at h
    obtain ⟨rfl, rfl⟩ := h
    rfl
  · rintro rfl
    exact ⟨out, [], rfl, runs_ofExcept.mpr ⟨rfl, rfl⟩⟩

theorem runs_keepSending_iff {self : PeriodicEngine conf} {alarmId originalState period : Json}
    {tr : PyTrace P} {keep : Bool} :
    Runs (self.keepSending alarmId originalState period) tr (.ok keep) ↔
      ∃ current, StateAnswer P alarmId current tr ∧
        keep = decide (self.goesOn current originalState period) := by
  rw [keepSending_eq, runs_bind_ok]
  simp only [Py.runs_retryOnDatabaseException, runs_getAlarmCurrentState]
  constructor
  · rintro ⟨tr₁, tr₂, current, rfl, hquery, rfl, hkeep⟩
    cases hkeep
    rw [List.append_nil]
    refine ⟨current, ?_, rfl⟩
    rcases hquery with ⟨rfl, -⟩ | ⟨_, _, rfl, rfl, rfl⟩
    · exact .first
    · exact .second
  · rintro ⟨current, hans, rfl⟩
    refine ⟨tr, [], current, (List.append_nil _).symm, ?_, rfl, rfl⟩
    cases hans with
    | first => exact Or.inl ⟨rfl, by simp⟩
    | second => exact Or.inr ⟨_, _, rfl, rfl, rfl⟩

theorem runs_keepSending {self : PeriodicEngine conf} {alarmId originalState period : Json}
    {tr : PyTrace P} {keep : Bool}
    (h : Runs (self.keepSending alarmId originalState period) tr (.ok keep)) :
    ∃ current, StateAnswer P alarmId current tr ∧
      keep = decide (self.goesOn current originalState period) :=
  runs_keepSending_iff.mp h

end PeriodicEngine

end MonascaNotification
