import Mathlib.Logic.Relation
import MonascaNotification.Infra.Timed
import MonascaNotification.Properties.Queues

/-!
# How far apart the sends of a notification are

An engine waits from the timestamp of the message on. This timestamp was read off the clock in
the body that published the message (`Engine.Performs.stamped`), so it is not later than
anything read in the body that consumes the message (`stamp_le_of_calls`), and a plugin call of that
body is a full interval or period later (`stamp_add_le`).

In the retry engine the timestamp is read again after the plugin has failed. The other engines
read it right before they call the plugin, so what passes between that reading and the call is
not waited for.
-/

namespace MonascaNotification

open Infra Prog Network

section

variable {P : Platform} {W : Environment P} {conf : Config} {T : Notifiers}
  {Reading : Rat → Prop}

/-! ## The clock -/

/-- `time.time()` reads the clock, and `time.sleep` rests for as long as asked at least. -/
def engineClock (P : Platform) : Clock (Effect P) Effect.Answer where
  reading := fun ev => match ev with
    | ⟨.time, now⟩ => some now
    | _ => none
  pause := fun e => match e with
    | .sleep seconds => seconds
    | _ => 0

/-- The answers of the clock are readings. -/
def Effect.Reads (Reading : Rat → Prop) : (e : Effect P) → e.Answer → Prop
  | .time, now => Reading now
  | _, _ => True

def Environment.Reads (W : Environment P) (Reading : Rat → Prop) : Prop :=
  ∀ {w now w'}, W.answer w .time now w' → Reading now

theorem Environment.Reads.answer (h : W.Reads Reading) {w w' : W.State} {e : Effect P}
    {r : e.Answer} (hans : W.answer w e r w') : e.Reads Reading r := by
  cases e with
  | time => exact h hans
  | _ => trivial

/-! ## The wait -/

/-- The message is the document of a notification that was stamped at `stamp`. -/
def StampedAt (P : Platform) (m : KafkaValue) (stamp : Rat) : Prop :=
  ∃ n : Notification P, m = .dumps n.toJson ∧ n.notificationTimestamp = .float (.fin stamp)

theorem StampedAt.unique {m : KafkaValue} {a b : Rat} (ha : StampedAt P m a)
    (hb : StampedAt P m b) : a = b := by
  obtain ⟨n, rfl, hn⟩ := ha
  obtain ⟨n', heq, hn'⟩ := hb
  have hget := getItem_toJson_timestamp n
  rw [KafkaValue.dumps.inj heq, getItem_toJson_timestamp, hn, hn'] at hget
  cases hget
  rfl

/-- The rest of a wait that is computed exactly. -/
theorem waitLeft_eq {bound : Int} {b : Json} (hb : b.toFloat P = .ok (.fin bound))
    (hP : P.Exact Reading bound) {m : KafkaValue} {data : Json} (hdata : P.jsonLoads m = .ok data)
    {now stamp : Rat} (hm : StampedAt P m stamp) (hnow : Reading now) (hstamp : Reading stamp)
    (hle : stamp ≤ now) : waitLeft P b data now = .ok (.fin (bound - (now - stamp))) := by
  obtain ⟨n, rfl, hn⟩ := hm
  cases hdata
  unfold waitLeft
  rw [getItem_toJson_timestamp, hn]
  show (do
    let bound ← b.toFloat P
    return P.sub bound (P.sub (.fin now) (.fin stamp)) : Except PyExn PyFloat) = _
  rw [hb]
  show Except.ok (P.sub (.fin bound) (P.round (now - stamp))) = _
  rw [hP.elapsed_eq hnow hstamp hle]
  exact congrArg Except.ok (hP.left_eq hnow hstamp hle)

/-- The readings of a trace are not earlier than `stamp`, and proper readings. -/
def ReadsFrom (Reading : Rat → Prop) (stamp : Rat) (tr : PyTrace P) : Prop :=
  ∀ now, (⟨.time, now⟩ : PyEvent P) ∈ tr → stamp ≤ now ∧ Reading now

/-- **After a wait the bound has passed since the timestamp.** -/
theorem stamp_add_le {bound : Int} {b : Json} (hb : b.toFloat P = .ok (.fin bound))
    (hP : P.Exact Reading bound) {m : KafkaValue} {data : Json} (hdata : P.jsonLoads m = .ok data)
    {stamp : Rat} (hm : StampedAt P m stamp) (hstamp : Reading stamp)
    {body before waiting after : List (PyEvent P × Rat)} (hbody : BodyClocked (engineClock P) body)
    (hsplit : body = before ++ (waiting ++ after))
    (hwait : WaitedFor P b data (waiting.map Prod.fst))
    (hreads : ReadsFrom Reading stamp (waiting.map Prod.fst)) {y : PyEvent P × Rat}
    (hy : y ∈ after) : stamp + bound ≤ y.2 := by
  subst hsplit
  generalize hevents : waiting.map Prod.fst = events at hwait hreads
  cases hwait with
  | @elapsed now duration hleft hpos =>
    obtain ⟨x, rest, rfl, hx, hrest⟩ := List.map_eq_cons_iff.mp hevents
    obtain rfl := List.map_eq_nil_iff.mp hrest
    obtain ⟨hle, hnow⟩ := hreads now (by simp)
    rw [waitLeft_eq hb hP hdata hm hnow hstamp hle] at hleft
    cases hleft
    have hmoment : x.2 = now := hbody.eq_of_reading (by simp) (by rw [hx]; rfl)
    have hafter : x.2 ≤ y.2 := hbody.le (by simpa using hy)
    have hover : (bound : Rat) - (now - stamp) ≤ 0 := by simpa [PyFloat.gtInt] using hpos
    linarith
  | @slept now q hleft hpos =>
    obtain ⟨x, rest, rfl, hx, hrest⟩ := List.map_eq_cons_iff.mp hevents
    obtain ⟨z, rest, rfl, hz, hrest⟩ := List.map_eq_cons_iff.mp hrest
    obtain rfl := List.map_eq_nil_iff.mp hrest
    obtain ⟨hle, hnow⟩ := hreads now (by simp)
    rw [waitLeft_eq hb hP hdata hm hnow hstamp hle] at hleft
    cases hleft
    have hmoment : x.2 = now := hbody.eq_of_reading (by simp) (by rw [hx]; rfl)
    have hsleep : x.2 ≤ z.2 := hbody.le (by simp)
    have hbody' : BodyClocked (engineClock P) ((before ++ [x]) ++ z :: after) := by
      simpa using hbody
    have hpause := hbody'.pause_le hy
    rw [hz] at hpause
    change z.2 + ((bound : Rat) - (now - stamp)) ≤ y.2 at hpause
    linarith

/-! ## What the engines do after the wait -/

/-- Neither a sleep nor a plugin call. -/
def Effect.Plain : Effect P → Prop
  | .sleep _ => False
  | .sendNotification _ _ => False
  | _ => True

/-- A plugin is called after the wait of the body, right after the clock was read for it. -/
def CallsAfterWait (b data : Json) (tr : PyTrace P) (n : Notification P) : Prop :=
  ∃ tr₁ tr₂ tr₃ n₀ now, tr = tr₁ ++ (tr₂ ++ (tr₃ ++ [⟨.time, now⟩])) ∧
    WaitedFor P b data tr₂ ∧ n = Notification.stamp n₀ now

/-- A sleep of a body is for what is left of its wait. -/
def SleepsInWait (b data : Json) (tr : PyTrace P) (seconds : Rat) : Prop :=
  ∃ tr₁ now, tr = tr₁ ++ [⟨.time, now⟩] ∧ waitLeft P b data now = .ok (.fin seconds)

theorem Effect.plain_of_isQuery {e : Effect P} (h : e.isQuery = true) : e.Plain := by
  cases e <;> trivial

theorem Effect.Records.plain {e : Effect P} (h : e.Records) : e.Plain := by
  cases e <;> trivial

/-- A send calls its plugin right after a look at the clock, and does not sleep. -/
theorem performs_send_plain {n : Notification P} {tr : PyTrace P} {e : Effect P}
    (h : Prog.Performs (send T [n]) tr e) (he : ¬ e.Plain) :
    ∃ notifier now, tr = [⟨.time, now⟩] ∧ e = .sendNotification notifier (n.stamp now) := by
  have hsends := (uses_send T [n]).performs h
  rcases performs_send_singleton h with hs | ⟨notifier, now, -, htr, hsend⟩
  · cases e <;> first | exact absurd trivial he | exact hsends.elim | exact hs.elim
  · exact ⟨notifier, now, htr, hsend⟩

theorem performs_send_rest {n : Notification P}
    {k : List (Notification P) × List (Notification P) → Py P Unit}
    (hk : ∀ r, Uses Effect.Records (k r)) {tr : PyTrace P} {e : Effect P}
    (h : Prog.Performs ((send T [n]).bind k) tr e) (he : ¬ e.Plain) :
    ∃ tr' n₀ notifier now, tr = tr' ++ [⟨.time, now⟩] ∧
      e = .sendNotification notifier (Notification.stamp n₀ now) := by
  rcases performs_bind.mp h with h | ⟨_, _, r, -, -, h⟩
  · obtain ⟨notifier, now, rfl, rfl⟩ := performs_send_plain h he
    exact ⟨[], n, notifier, now, rfl, rfl⟩
  · exact absurd ((hk r).performs h).plain he

/-- A wait, and a rest `p` that only calls a plugin, right after a look at the clock. -/
theorem performs_wait_rest {b data : Json} {p : Py P Unit}
    (hp : ∀ {tr e}, Prog.Performs p tr e → ¬ e.Plain → ∃ tr' n₀ notifier now,
      tr = tr' ++ [⟨.time, now⟩] ∧ e = .sendNotification notifier (Notification.stamp n₀ now))
    {tr : PyTrace P} {e : Effect P} (h : Prog.Performs (do
      let duration ← waitDuration b data
      waitFor duration
      p : Py P Unit) tr e) (he : ¬ e.Plain) :
    (∃ q, e = .sleep q ∧ SleepsInWait b data tr q) ∨
      ∃ notifier n, e = .sendNotification notifier n ∧ CallsAfterWait b data tr n := by
  rcases performs_wait h with rfl | ⟨now, q, rfl, rfl, hleft⟩ | ⟨tr₁, tr₂, rfl, hwait, h⟩
  · exact absurd trivial he
  · exact Or.inl ⟨q, rfl, [], now, rfl, hleft⟩
  · obtain ⟨tr₃, n₀, notifier, now, rfl, rfl⟩ := hp h he
    exact Or.inr ⟨notifier, _, rfl, [], tr₁, tr₃, n₀, now, rfl, hwait, rfl⟩

theorem SleepsInWait.append {b data : Json} {tr : PyTrace P} {q : Rat} (before : PyTrace P)
    (h : SleepsInWait b data tr q) : SleepsInWait b data (before ++ tr) q := by
  obtain ⟨tr₁, now, rfl, hleft⟩ := h
  exact ⟨before ++ tr₁, now, by simp, hleft⟩

theorem CallsAfterWait.append {b data : Json} {tr : PyTrace P} {n : Notification P}
    (before : PyTrace P) (h : CallsAfterWait b data tr n) :
    CallsAfterWait b data (before ++ tr) n := by
  obtain ⟨tr₁, tr₂, tr₃, n₀, now, rfl, hrest⟩ := h
  exact ⟨before ++ tr₁, tr₂, tr₃, n₀, now, by simp, hrest⟩

namespace RetryEngine

theorem performs_body_wait {m : KafkaValue} {tr : PyTrace P} {e : Effect P}
    (h : Prog.Performs (body conf T m) tr e) (he : ¬ e.Plain) :
    ∃ data, P.jsonLoads m = .ok data ∧
      ((∃ q, e = .sleep q ∧ SleepsInWait (.int conf.interval) data tr q) ∨
        ∃ notifier n, e = .sendNotification notifier n ∧
          CallsAfterWait (.int conf.interval) data tr n) := by
  unfold body at h
  replace h := performs_bind.mp h
  rcases h with h | ⟨tr₀, tr', data, rfl, h₁, h⟩
  · exact absurd h performs_ofExcept
  obtain ⟨rfl, hdata⟩ := runs_ofExcept.mp h₁
  refine ⟨data, hdata.symm, ?_⟩
  rw [List.nil_append]
  replace h := performs_bind.mp h
  rcases h with h | ⟨tr₁, tr₂, r, rfl, -, h⟩
  · exact absurd (Effect.plain_of_isQuery ((asks_constructNotificationObject data).performs h)) he
  cases r with
  | none => exact absurd (uses_commit.performs h).plain he
  | some n =>
    rcases performs_wait_rest
        (fun h he => performs_send_rest (fun r => uses_afterSend conf r.1 r.2) h he) h he with
      ⟨q, rfl, hsleep⟩ | ⟨notifier, n', rfl, hcall⟩
    · exact Or.inl ⟨q, rfl, hsleep.append tr₁⟩
    · exact Or.inr ⟨notifier, n', rfl, hcall.append tr₁⟩

end RetryEngine

namespace PeriodicEngine

/-- The loop body after its wait. -/
theorem performs_send {self : PeriodicEngine conf} {n : Notification P} {tr : PyTrace P}
    {e : Effect P} (h : Prog.Performs (do
      let now ← Py.time
      let notification := n.stamp now
      let (sent, failed) ← send T [notification]
      let notification := (sent ++ failed).headD notification
      Py.publish (.periodic self.topicName) [notification.toJson]
      Py.commit : Py P Unit) tr e) (he : ¬ e.Plain) :
    ∃ tr' n₀ notifier now, tr = tr' ++ [⟨.time, now⟩] ∧
      e = .sendNotification notifier (Notification.stamp n₀ now) := by
  replace h := performs_bind.mp h
  rcases h with (⟨-, rfl⟩ | ⟨_, _, -, h⟩) | ⟨tr₁, tr₂, now, rfl, -, h⟩
  · exact absurd trivial he
  · cases h
  have hk : ∀ r : List (Notification P) × List (Notification P), Uses Effect.Records (do
      Py.publish (.periodic self.topicName) [((r.1 ++ r.2).headD (n.stamp now)).toJson]
      Py.commit : Py P Unit) :=
    fun _ => ⟨trivial, fun _ => uses_commit⟩
  obtain ⟨tr', n₀, notifier, now', rfl, rfl⟩ := performs_send_rest hk h he
  exact ⟨tr₁ ++ tr', n₀, notifier, now', by simp, rfl⟩

theorem performs_body_wait {self : PeriodicEngine conf} {m : KafkaValue} {tr : PyTrace P}
    {e : Effect P} (h : Prog.Performs (self.body T m) tr e) (he : ¬ e.Plain) :
    ∃ data period, P.jsonLoads m = .ok data ∧ period.eqInt self.period = true ∧
      ((∃ q, e = .sleep q ∧ SleepsInWait period data tr q) ∨
        ∃ notifier n, e = .sendNotification notifier n ∧ CallsAfterWait period data tr n) := by
  unfold body at h
  replace h := performs_bind.mp h
  rcases h with h | ⟨tr₀, tr', data, rfl, h₁, h⟩
  · exact absurd h performs_ofExcept
  obtain ⟨rfl, hdata⟩ := runs_ofExcept.mp h₁
  rw [List.nil_append]
  replace h := performs_bind.mp h
  rcases h with h | ⟨tr₁, tr₂, r, rfl, -, h⟩
  · exact absurd (Effect.plain_of_isQuery ((asks_constructNotificationObject data).performs h)) he
  cases r with
  | none => exact absurd (uses_commit.performs h).plain he
  | some n =>
    dsimp only at h
    replace h := performs_bind.mp h
    rcases h with h | ⟨tr₃, tr₄, keep, rfl, hkeep, h⟩
    · exact absurd (Effect.plain_of_isQuery ((asks_keepSending self _ _ _).performs h)) he
    obtain ⟨current, -, hgo⟩ := runs_keepSending hkeep
    cases keep with
    | false => exact absurd (uses_commit.performs h).plain he
    | true =>
      have hperiod : n.period.eqInt self.period = true := (of_decide_eq_true hgo.symm).2
      refine ⟨data, n.period, hdata.symm, hperiod, ?_⟩
      rcases performs_wait_rest (fun h he => performs_send h he) h he with
        ⟨q, rfl, hsleep⟩ | ⟨notifier, n', rfl, hcall⟩
      · exact Or.inl ⟨q, rfl, (hsleep.append tr₃).append tr₁⟩
      · exact Or.inr ⟨notifier, n', rfl, (hcall.append tr₃).append tr₁⟩

end PeriodicEngine

/-- The wait of an engine between a timestamp and a plugin call. -/
def Engine.wait : Engine conf → Int
  | .notification => 0
  | .retry => conf.interval
  | .periodic self => self.period

theorem Engine.performs_body_wait {i : Engine conf} (hi : i ≠ .notification) {o : Nat}
    {m : KafkaValue} {tr : PyTrace P} {e : Effect P} (h : Prog.Performs (i.body P T o m) tr e)
    (he : ¬ e.Plain) :
    ∃ data b, P.jsonLoads m = .ok data ∧ b.eqInt i.wait = true ∧
      ((∃ q, e = .sleep q ∧ SleepsInWait b data tr q) ∨
        ∃ notifier n, e = .sendNotification notifier n ∧ CallsAfterWait b data tr n) := by
  cases i with
  | notification => exact absurd rfl hi
  | retry =>
    obtain ⟨data, hdata, hrest⟩ := RetryEngine.performs_body_wait h he
    exact ⟨data, .int conf.interval, hdata, by simp [Json.eqInt, Json.asInt?, wait], hrest⟩
  | periodic self => exact PeriodicEngine.performs_body_wait h he

theorem toFloat_of_eqInt {p : Int} (hp : P.round p = .fin p) {j : Json}
    (h : j.eqInt p = true) : j.toFloat P = .ok (.fin p) := by
  cases j with
  | float x =>
    have hx : x = .fin p := by simpa [Json.eqInt] using h
    rw [hx]
    rfl
  | bool b =>
    have hb : (if b then 1 else 0) = p := by simpa [Json.eqInt, Json.asInt?] using h
    subst hb
    exact intToFloat_eq hp
  | int n =>
    have hn : n = p := by simpa [Json.eqInt, Json.asInt?] using h
    subst hn
    exact intToFloat_eq hp
  | _ => simp [Json.eqInt, Json.asInt?] at h

/-! ## Bodies in a run -/

/-- The contract of the engines, with the readings of the clock. -/
def readsContract (hW : W.Reads Reading) : Contract (system W conf T False) :=
  (contract W conf T False).also (A := Effect.Reads Reading) hW.answer

section

variable {s : SystemState W conf} {dated : List ((Engine conf × PyEvent P) × Rat)}
  {i : Engine conf} {o : Nat} {m : KafkaValue} {tr : PyTrace P}

/-- **A message was stamped before its body read anything.** -/
theorem exists_stamp (hW : W.Reads Reading) (h : Reachable (system W conf T False) s)
    (hdated : dated.map Prod.fst = s.history) (hc : Clocked (engineClock P) dated)
    (hi : i ≠ .notification) (hb : InBody s i o m tr) :
    ∃ stamp, StampedAt P m stamp ∧ Reading stamp ∧ ReadsFrom Reading stamp tr := by
  obtain ⟨s₀, later, hs₀, hhist, hlog, hsub⟩ := hb.started h
  have hqueue : i.source.IsQueue := by
    cases i with
    | notification => exact absurd rfl hi
    | _ => trivial
  have henv : ∀ {w pubs w'}, (system W conf T False).env w pubs w' →
      ∀ p ∈ pubs, p.1 ≠ i.source := by
    rintro w pubs w' ⟨alarms, rfl, -⟩ p hp heq
    obtain ⟨alarm, -, rfl⟩ := List.mem_map.mp hp
    rw [← heq] at hqueue
    cases hqueue
  obtain ⟨x, hx, hpub⟩ := mem_history_of_mem_log hs₀ henv m (List.mem_of_getElem? hlog)
  obtain ⟨h₁, h₂, hsplit⟩ := List.append_of_mem hx
  obtain ⟨o', m', tr', hadm, hΦ, hbefore⟩ := (readsContract hW).history_reachable hs₀ hsplit
  obtain ⟨n, stamp, hm, hstamp, -⟩ := Engine.Performs.stamped hΦ hpub hqueue
  have hm : m = .dumps (n.stamp stamp).toJson := hm
  refine ⟨stamp, ⟨n.stamp stamp, hm, rfl⟩, (hadm _ hstamp).2, fun now hnow => ⟨?_, ?_⟩⟩
  · have hfirst : (x.1, (⟨.time, stamp⟩ : PyEvent P)) ∈ s₀.history := by
      rw [hsplit]
      exact List.mem_append_left _ (hbefore _ hstamp)
    have hlater : (i, (⟨.time, now⟩ : PyEvent P)) ∈ later :=
      hsub.subset (List.mem_map.mpr ⟨_, hnow, rfl⟩)
    exact hc.reading_le (hdated.trans hhist) hfirst hlater rfl rfl
  · exact (((readsContract hW).inBody h hb).2 _ hnow).2

/-- The body gave `n` to a plugin at `t`. -/
def CallsAt (body : List (PyEvent P × Rat)) (n : Notification P) (t : Rat) : Prop :=
  ∃ notifier answer, (⟨.sendNotification notifier n, answer⟩, t) ∈ body

/-- An event of a body was performed after those in front of it. -/
theorem InBody.performs_dated (h : Reachable (system W conf T False) s) (hb : InBody s i o m tr)
    {body before after : List (PyEvent P × Rat)} {x : PyEvent P × Rat}
    (hd : Dates dated i tr body) (hsplit : body = before ++ x :: after) :
    Prog.Performs (i.body P T o m) (before.map Prod.fst) x.1.1 := by
  rw [← hd.events, hsplit, List.map_append, List.map_cons] at hb
  exact InBody.performs (N := system W conf T False) h hb

/-- **A plugin call is a full wait after the timestamp of the message.** -/
theorem stamp_add_wait_le (hW : W.Reads Reading) (hP : P.Exact Reading i.wait)
    (h : Reachable (system W conf T False) s) (hdated : dated.map Prod.fst = s.history)
    (hc : Clocked (engineClock P) dated) (hi : i ≠ .notification) (hb : InBody s i o m tr)
    {body : List (PyEvent P × Rat)} (hd : Dates dated i tr body) {n : Notification P} {t : Rat}
    (hcall : CallsAt body n t) {stamp : Rat} (hm : StampedAt P m stamp) : stamp + i.wait ≤ t := by
  obtain ⟨stamp', hm', hreading, hreads⟩ := exists_stamp hW h hdated hc hi hb
  obtain rfl := hm.unique hm'
  have hbody := hc.body hd
  obtain ⟨notifier, answer, hmem⟩ := hcall
  obtain ⟨before, after, hsplit⟩ := List.append_of_mem hmem
  obtain ⟨data, b, hdata, hbound, hsend⟩ := Engine.performs_body_wait hi
    (InBody.performs_dated h hb hd hsplit) (fun hplain => hplain)
  rcases hsend with ⟨_, hsleep, -⟩ | ⟨_, _, -, tr₁, tr₂, tr₃, n₀, now, hbefore, hwait, -⟩
  · cases hsleep
  obtain ⟨before₁, rest, rfl, -, hrest⟩ := List.map_eq_append_iff.mp hbefore
  obtain ⟨before₂, before₃, rfl, hwaiting, -⟩ := List.map_eq_append_iff.mp hrest
  have hparts : body = before₁ ++
      (before₂ ++ (before₃ ++ (⟨.sendNotification notifier n, answer⟩, t) :: after)) := by
    rw [hsplit]
    simp
  have hwaitReads : ReadsFrom Reading stamp (before₂.map Prod.fst) := by
    intro now' hnow'
    refine hreads now' ?_
    rw [← hd.events, hparts]
    simp only [List.map_append, List.mem_append]
    exact Or.inr (Or.inl hnow')
  exact stamp_add_le (toFloat_of_eqInt hP.bound_eq hbound) hP hdata hm hreading hbody hparts
    (hwaiting ▸ hwait) hwaitReads (y := (⟨.sendNotification notifier n, answer⟩, t)) (by simp)

/-- **No sleep is longer than the wait of its engine.** -/
theorem sleep_le_wait (hW : W.Reads Reading) (hP : P.Exact Reading i.wait)
    (h : Reachable (system W conf T False) s) (hdated : dated.map Prod.fst = s.history)
    (hc : Clocked (engineClock P) dated) (hi : i ≠ .notification) (hb : InBody s i o m tr)
    {seconds : Rat} (hsleep : (⟨.sleep seconds, ()⟩ : PyEvent P) ∈ tr) : seconds ≤ i.wait := by
  obtain ⟨stamp, hm, hreading, hreads⟩ := exists_stamp hW h hdated hc hi hb
  obtain ⟨before, after, rfl⟩ := List.append_of_mem hsleep
  have hperf := InBody.performs (N := system W conf T False) h hb
  obtain ⟨data, b, hdata, hbound, hwait⟩ :=
    Engine.performs_body_wait hi hperf (fun hplain => hplain)
  rcases hwait with ⟨q, hq, tr₁, now, rfl, hleft⟩ | ⟨_, _, hsend, -⟩
  · cases hq
    obtain ⟨hle, hnow⟩ := hreads now (by simp)
    rw [waitLeft_eq (toFloat_of_eqInt hP.bound_eq hbound) hP hdata hm hnow hreading hle] at hleft
    cases hleft
    linarith
  · cases hsend

/-- The notification that a plugin gets after a wait was stamped before, in the same body. -/
theorem stamp_le_of_calls (h : Reachable (system W conf T False) s)
    (hc : Clocked (engineClock P) dated) (hi : i ≠ .notification) (hb : InBody s i o m tr)
    {body : List (PyEvent P × Rat)} (hd : Dates dated i tr body) {n : Notification P} {t : Rat}
    (hcall : CallsAt body n t) :
    ∃ stamp, n.notificationTimestamp = .float (.fin stamp) ∧ stamp ≤ t := by
  obtain ⟨notifier, answer, hmem⟩ := hcall
  obtain ⟨before, after, hsplit⟩ := List.append_of_mem hmem
  have hbody := hc.body hd
  rw [hsplit] at hbody
  obtain ⟨_, _, -, -, ⟨_, hsleep, -⟩ | ⟨_, n', heq, tr₁, tr₂, tr₃, n₀, now, hbefore, -, hn⟩⟩ :=
    Engine.performs_body_wait hi (InBody.performs_dated h hb hd hsplit) (fun hplain => hplain)
  · cases hsleep
  cases heq
  refine ⟨now, by rw [hn]; rfl, ?_⟩
  have hread : (⟨.time, now⟩ : PyEvent P) ∈ before.map Prod.fst := by
    rw [hbefore]
    simp
  obtain ⟨x, hx, hxnow⟩ := List.mem_map.mp hread
  obtain ⟨before₁, before₂, rfl⟩ := List.append_of_mem hx
  have hmoment : x.2 = now := hbody.eq_of_reading (by simp) (by rw [hxnow]; rfl)
  have hle : x.2 ≤ t := by
    rw [List.append_assoc, List.cons_append] at hbody
    exact hbody.le (y := (⟨.sendNotification notifier n, answer⟩, t)) (by simp)
  rwa [hmoment] at hle

/-! ## What is published after a plugin call -/

/-- The body gave `n` to a plugin at `t`, and later published `d` on `topic`. -/
def CallsBefore (body : List (PyEvent P × Rat)) (n : Notification P) (t : Rat) (topic : Topic)
    (d : KafkaValue) : Prop :=
  ∃ before notifier answer after,
    body = before ++ (⟨.sendNotification notifier n, answer⟩, t) :: after ∧
      (topic, d) ∈ publications (after.map Prod.fst)

theorem CallsBefore.callsAt {body : List (PyEvent P × Rat)} {n : Notification P} {t : Rat}
    {topic : Topic} {d : KafkaValue} (h : CallsBefore body n t topic d) : CallsAt body n t := by
  obtain ⟨before, notifier, answer, after, rfl, -⟩ := h
  exact ⟨notifier, answer, by simp⟩

/-- The publication was performed after the call and what lies between. -/
theorem CallsBefore.performs (h : Reachable (system W conf T False) s) (hb : InBody s i o m tr)
    {body : List (PyEvent P × Rat)} (hd : Dates dated i tr body) {n : Notification P} {t : Rat}
    {topic : Topic} {d : KafkaValue} (hcall : CallsBefore body n t topic d) :
    ∃ before notifier answer between rest e,
      body = before ++ (⟨.sendNotification notifier n, answer⟩, t) :: (between ++ rest) ∧
      i.Performs T o m (before.map Prod.fst ++ ⟨.sendNotification notifier n, answer⟩ ::
        between.map Prod.fst) e ∧ (topic, d) ∈ e.published := by
  obtain ⟨before, notifier, answer, after, hsplit, hpub⟩ := hcall
  obtain ⟨ev, hev, hone⟩ := List.mem_flatMap.mp hpub
  obtain ⟨x, hx, rfl⟩ := List.mem_map.mp hev
  obtain ⟨between, rest, rfl⟩ := List.append_of_mem hx
  refine ⟨before, notifier, answer, between, x :: rest, x.1.1, hsplit, ?_, hone⟩
  have hparts : body = (before ++ (⟨.sendNotification notifier n, answer⟩, t) :: between) ++
      x :: rest := by
    rw [hsplit]
    simp
  have hperf := InBody.performs_dated h hb hd hparts
  rw [List.map_append, List.map_cons] at hperf
  exact Engine.performs_body hperf

/-- The retry engine reads the clock again after a failed call. -/
theorem le_stamp_of_retry (h : Reachable (system W conf T False) s)
    (hc : Clocked (engineClock P) dated) (hb : InBody s .retry o m tr)
    {body : List (PyEvent P × Rat)} (hd : Dates dated .retry tr body) {n : Notification P}
    {t : Rat} {d : KafkaValue} (hcall : CallsBefore body n t .retry d) :
    ∃ stamp, StampedAt P d stamp ∧ t ≤ stamp := by
  obtain ⟨before, notifier, answer, between, rest, e, hsplit, hperf, hpub⟩ :=
    hcall.performs h hb hd
  generalize htrace : before.map Prod.fst ++ ⟨.sendNotification notifier n, answer⟩ ::
    between.map Prod.fst = trace at hperf
  cases hperf with
  | silent hs => exact absurd hs (Effect.not_silent_of_mem_published hpub)
  | record _ _ _ => simp at hpub
  | @requeue tr₁ tr₂ tr₃ n' m' count now _ _ _ _ _ =>
    obtain rfl : d = .dumps ({ m' with retryCount := count }.stamp now).toJson := by
      simpa using hpub
    refine ⟨now, ⟨{ m' with retryCount := count }.stamp now, rfl, rfl⟩, ?_⟩
    obtain ⟨last, hlast, -⟩ := exists_of_append_eq_left htrace.symm (by simp)
    obtain ⟨x, hx, hxnow⟩ := List.mem_map.mp
      (show (⟨.time, now⟩ : PyEvent P) ∈ between.map Prod.fst by rw [hlast]; simp)
    have hbody := hc.body hd
    rw [hsplit] at hbody
    have hmoment : x.2 = now := hbody.eq_of_reading (by simp [hx]) (by rw [hxnow]; rfl)
    rw [← hmoment]
    exact hbody.le (x := (⟨.sendNotification notifier n, answer⟩, t))
      (List.mem_append_left _ hx)
  | _ => cases hpub

/-- A periodic engine publishes the notification that its plugin got. -/
theorem stampedAt_of_periodic (self : PeriodicEngine conf)
    (h : Reachable (system W conf T False) s) (hb : InBody s (.periodic self) o m tr)
    {body : List (PyEvent P × Rat)} (hd : Dates dated (.periodic self) tr body)
    {n : Notification P} {t : Rat} {d : KafkaValue}
    (hcall : CallsBefore body n t (.periodic self.topicName) d) : d = .dumps n.toJson := by
  obtain ⟨before, notifier, answer, between, rest, e, -, hperf, hpub⟩ := hcall.performs h hb hd
  generalize htrace : before.map Prod.fst ++ ⟨.sendNotification notifier n, answer⟩ ::
    between.map Prod.fst = trace at hperf
  cases hperf with
  | silent hs => exact absurd hs (Effect.not_silent_of_mem_published hpub)
  | @forward tr₁ tr₂ tr₃ tr₄ n' _ now now' sent failed hr hstate _ hw hh heq =>
    obtain rfl : d = .dumps (n'.stamp now').toJson := by simpa using hpub
    -- the only call of the body is in the send
    have hsent : n ∈ sends (tr₁ ++ tr₂ ++ tr₃ ++ ⟨.time, now⟩ :: tr₄) := by
      rw [← htrace]
      simp [sends_cons, attempted]
    simp only [sends_append, hr.quiet.sends, hstate.quiet.sends, hw.quiet.sends, sends_cons,
      attempted, Option.toList_none, List.nil_append] at hsent
    rcases hh.singleton with ⟨-, -, -, hnone⟩ | ⟨_, u, -, hone, ⟨rfl, rfl⟩ | ⟨rfl, rfl⟩⟩
    · rw [hnone] at hsent
      cases hsent
    · rw [hone, List.mem_singleton] at hsent
      rw [hsent, ← heq]
      rfl
    · rw [hone, List.mem_singleton] at hsent
      rw [hsent, ← heq]
      rfl
  | _ => cases hpub

/-- The notification engine puts a refused notification on the retry topic as its plugin got it. -/
theorem stamped_of_notification (h : Reachable (system W conf T False) s)
    (hc : Clocked (engineClock P) dated) (hb : InBody s .notification o m tr)
    {body : List (PyEvent P × Rat)} (hd : Dates dated .notification tr body)
    {n n₁ : Notification P} {t : Rat} (hcall : CallsBefore body n t .retry (.dumps n₁.toJson))
    (hid : n₁.id = n.id) : ∃ stamp, StampedAt P (.dumps n₁.toJson) stamp ∧
      n.notificationTimestamp = .float (.fin stamp) ∧ stamp ≤ t := by
  obtain ⟨before, notifier, answer, between, rest, e, hsplit, hperf, hpub⟩ :=
    hcall.performs h hb hd
  have hadm : Trace.Admits Effect.Admissible tr :=
    ((contract W conf T False).inBody h hb).2
  rw [← hd.events, hsplit] at hadm
  simp only [List.map_append, List.map_cons, ← List.cons_append, ← List.append_assoc] at hadm
  rw [Trace.admits_append] at hadm
  replace hadm := hadm.1
  generalize htrace : before.map Prod.fst ++ ⟨.sendNotification notifier n, answer⟩ ::
    between.map Prod.fst = trace at hperf hadm
  cases hperf with
  | silent hs => exact absurd hs (Effect.not_silent_of_mem_published hpub)
  | opens _ _ _ => simp at hpub
  | record _ _ _ => simp at hpub
  | @requeue tr₁ tr₂ tr₃ ns ns' sent failed hbuilt hopens hh =>
    simp only [Effect.published_publish, List.map_map, List.mem_map, Function.comp,
      Prod.mk.injEq, true_and] at hpub
    obtain ⟨n₂, hn₂, hdoc⟩ := hpub
    have hid₂ : n₂.id = n.id := by
      have hget : n₂.toJson.getItem "id" = n₁.toJson.getItem "id" := by
        rw [KafkaValue.dumps.inj hdoc]
      simpa [Notification.toJson, Json.getItem, List.lookup_cons, hid] using hget
    obtain ⟨d₁, d₂, invalid, rfl, hdisp, hcount⟩ := hh
    -- the call is in the loop of the send
    have hnot₁ : (⟨.sendNotification notifier n, answer⟩ : PyEvent P) ∉ tr₁ ++ tr₂ := by
      intro hmem
      rcases List.mem_append.mp hmem with hmem | hmem
      · exact hbuilt.quiet _ hmem
      · have hsends : n ∈ sends tr₂ := List.mem_filterMap.mpr ⟨_, hmem, rfl⟩
        rw [hopens.sends] at hsends
        cases hsends
    have hnot₂ : (⟨.sendNotification notifier n, answer⟩ : PyEvent P) ∉
        d₂ ++ [publishes P .notification (sent.map Notification.toJson)] := by
      intro hmem
      rcases List.mem_append.mp hmem with hmem | hmem
      · exact hcount _ hmem
      · simp at hmem
    rw [List.append_assoc (tr₁ ++ tr₂), List.append_assoc d₁] at htrace
    obtain ⟨b', hbefore, hrest⟩ := exists_of_append_eq_right htrace.symm hnot₁
    obtain ⟨b'', -, hloop⟩ := exists_of_append_eq_left hrest hnot₂
    obtain ⟨n₀, hn₀, now, rfl, hnow⟩ := hdisp.of_call hloop
    have hne : ns ≠ [] := by
      rintro rfl
      cases hopens
      cases hn₀
    have hnodup : ((sends d₁).map (·.id)).Nodup := by
      refine hdisp.map_id_sends.nodup ?_
      rw [hopens.map_id]
      simp only [Trace.admits_append] at hadm
      exact (hbuilt.rows hne hadm.1.1.1).1
    have hcalled : n₀.stamp now ∈ sends d₁ := by
      rw [hloop]
      simp [sends_cons, attempted]
    have hsame : n₂ = n₀.stamp now :=
      List.inj_on_of_nodup_map hnodup (hdisp.mem_sends_of_mem_failed hn₂) hcalled hid₂
    refine ⟨now, ⟨n₂, hdoc.symm, by rw [hsame]; rfl⟩, rfl, ?_⟩
    obtain ⟨x, hx, hxnow⟩ := List.mem_map.mp
      (show (⟨.time, now⟩ : PyEvent P) ∈ before.map Prod.fst by rw [hbefore]; simp [hnow])
    obtain ⟨before₁, before₂, rfl⟩ := List.append_of_mem hx
    have hbody := hc.body hd
    rw [hsplit, List.append_assoc, List.cons_append] at hbody
    have hmoment : x.2 = now := hbody.eq_of_reading (by simp) (by rw [hxnow]; rfl)
    rw [← hmoment]
    exact hbody.le (y := (⟨.sendNotification notifier (n₀.stamp now), answer⟩, t)) (by simp)
  | _ => cases hpub

end

/-! ## Consecutive sends -/

section

variable (s : SystemState W conf) (dated : List ((Engine conf × PyEvent P) × Rat))

/--
The engine gave `n` to a plugin at `t` and put it on the retry topic, and the retry engine
called a plugin for that message at `t'`.
-/
def RetriedAfter (i : Engine conf) (n : Notification P) (t t' : Rat) : Prop :=
  ∃ o m tr body, ∃ n₁ : Notification P, ∃ o' tr' body' n', InBody s i o m tr ∧
    Dates dated i tr body ∧ CallsBefore body n t .retry (.dumps n₁.toJson) ∧ n₁.id = n.id ∧
    InBody s .retry o' (.dumps n₁.toJson) tr' ∧ Dates dated .retry tr' body' ∧
    CallsAt body' n' t'

/-- The engine published the message `d` of its chain in the body of the message `m`. -/
def Forwards (self : PeriodicEngine conf) (m d : KafkaValue) : Prop :=
  ∃ o tr, InBody s (.periodic self) o m tr ∧ (.periodic self.topicName, d) ∈ publications tr

/--
The engine gave `n` to a plugin at `t`, and at `t'` called a plugin for a later message of the
chain.
-/
def ChainedAfter (self : PeriodicEngine conf) (n : Notification P) (t t' : Rat) : Prop :=
  ∃ o m tr body d d' o' tr' body' n', InBody s (.periodic self) o m tr ∧
    Dates dated (.periodic self) tr body ∧ CallsBefore body n t (.periodic self.topicName) d ∧
    Relation.ReflTransGen (Forwards s self) d d' ∧ InBody s (.periodic self) o' d' tr' ∧
    Dates dated (.periodic self) tr' body' ∧ CallsAt body' n' t'

end

section

variable {s : SystemState W conf} {dated : List ((Engine conf × PyEvent P) × Rat)}

/-- Along a chain the timestamps do not decrease. -/
theorem stamp_mono (hW : W.Reads Reading) (h : Reachable (system W conf T False) s)
    (hdated : dated.map Prod.fst = s.history) (hc : Clocked (engineClock P) dated)
    {self : PeriodicEngine conf} {d d' : KafkaValue}
    (hchain : Relation.ReflTransGen (Forwards s self) d d') {stamp : Rat}
    (hd : StampedAt P d stamp) : ∃ stamp', StampedAt P d' stamp' ∧ stamp ≤ stamp' := by
  induction hchain with
  | refl => exact ⟨stamp, hd, le_refl _⟩
  | tail _ hforward ih =>
    obtain ⟨stamp', hb, hle⟩ := ih
    obtain ⟨o, tr, hbody, hpub⟩ := hforward
    obtain ⟨stamp'', hb', -, hreads⟩ := exists_stamp hW h hdated hc (by simp) hbody
    obtain rfl := hb.unique hb'
    obtain ⟨ev, hev, hone⟩ := List.mem_flatMap.mp hpub
    obtain ⟨before, after, rfl⟩ := List.append_of_mem hev
    have hperf := Engine.performs_body (InBody.performs (N := system W conf T False) h hbody)
    obtain ⟨n, now, heq, hnow, -⟩ := Engine.Performs.stamped hperf hone trivial
    refine ⟨now, ⟨n.stamp now, heq, rfl⟩, hle.trans (hreads now ?_).1⟩
    exact List.mem_append_left _ hnow

/--
**Waits keep sends apart.** In a run without crashes, whose events have moments that agree with
one clock, a retried notification is sent again no sooner than a full interval after the
timestamp of its last plugin call, which was read right before that call; and no sooner than a
full interval after the call itself when the retry engine made it. Along a periodic chain the
same holds with the period. No sleep is longer than the interval or the period.
-/
theorem waits_apart (hW : W.Reads Reading) (hinterval : P.Exact Reading conf.interval)
    (h : Reachable (system W conf T False) s) (hdated : dated.map Prod.fst = s.history)
    (hc : Clocked (engineClock P) dated) :
    (∀ i n t t', i = .notification ∨ i = .retry → RetriedAfter s dated i n t t' →
      ∃ stamp, n.notificationTimestamp = .float (.fin stamp) ∧ stamp ≤ t ∧
        stamp + conf.interval ≤ t' ∧ (i = .retry → t + conf.interval ≤ t')) ∧
    (∀ self : PeriodicEngine conf, P.Exact Reading self.period → ∀ n t t',
      ChainedAfter s dated self n t t' → ∃ stamp,
        n.notificationTimestamp = .float (.fin stamp) ∧ stamp ≤ t ∧ stamp + self.period ≤ t') ∧
    ∀ i, i ≠ .notification → P.Exact Reading i.wait → ∀ o m tr seconds, InBody s i o m tr →
      (⟨.sleep seconds, ()⟩ : PyEvent P) ∈ tr → seconds ≤ i.wait := by
  refine ⟨?_, ?_, fun i hi hP o m tr seconds hb hsleep =>
    sleep_le_wait hW hP h hdated hc hi hb hsleep⟩
  · rintro i n t t' hi
      ⟨o, m, tr, body, n₁, o', tr', body', n', hb, hd, hcall, hid, hb', hd', hcall'⟩
    have happart : ∀ {stamp}, StampedAt P (.dumps n₁.toJson) stamp →
        stamp + conf.interval ≤ t' :=
      fun hm => stamp_add_wait_le (i := .retry) hW hinterval h hdated hc (by simp) hb' hd' hcall' hm
    rcases hi with rfl | rfl
    · obtain ⟨stamp, hm, hstamp, hle⟩ := stamped_of_notification h hc hb hd hcall hid
      exact ⟨stamp, hstamp, hle, happart hm, fun hretry => by cases hretry⟩
    · obtain ⟨stamp', hm, hle'⟩ := le_stamp_of_retry h hc hb hd hcall
      obtain ⟨stamp, hstamp, hle⟩ := stamp_le_of_calls h hc (by simp) hb hd hcall.callsAt
      have := happart hm
      exact ⟨stamp, hstamp, hle, by linarith, fun _ => by linarith⟩
  · rintro self hP n t t' ⟨o, m, tr, body, d, d', o', tr', body', n', hb, hd, hcall, hchain, hb',
      hd', hcall'⟩
    obtain ⟨stamp, hstamp, hle⟩ := stamp_le_of_calls h hc (by simp) hb hd hcall.callsAt
    have hm : StampedAt P d stamp := ⟨n, stampedAt_of_periodic self h hb hd hcall, hstamp⟩
    obtain ⟨stamp', hm', hmono⟩ := stamp_mono hW h hdated hc hchain hm
    have hwait := stamp_add_wait_le (i := .periodic self) hW hP h hdated hc (by simp) hb' hd'
      hcall' hm'
    change stamp' + self.period ≤ t' at hwait
    exact ⟨stamp, hstamp, hle, by linarith⟩

end

end

/-! ## A slow call -/

namespace Deployment

/--
The world at a moment, with a plugin that refuses. What an engine does takes no time, except for
a sleep, and for the `delay` between the look at the clock and the plugin call.
-/
def slowly (delay : Rat) (e : Effect cpython) (now : Rat) : e.Answer × Rat :=
  (store.reply now (.ok (.bool false)) e, match e with
    | .sleep seconds => now + seconds
    | .sendNotification _ _ => now + delay
    | _ => now)

/-- The moments of the events in this world. -/
def moments (delay : Rat) : Rat → PyTrace cpython → List (PyEvent cpython × Rat)
  | _, [] => []
  | now, ev :: tr =>
    match ev.1 with
    | .sleep seconds => (ev, now) :: moments delay (now + seconds) tr
    | .sendNotification _ _ => (ev, now + delay) :: moments delay (now + delay) tr
    | _ => (ev, now) :: moments delay now tr

theorem map_fst_moments (delay now : Rat) (tr : PyTrace cpython) :
    (moments delay now tr).map Prod.fst = tr := by
  induction tr generalizing now with
  | nil => rfl
  | cons ev tr ih =>
    unfold moments
    split <;> rw [List.map_cons, ih]

/-- The body for the first alarm, whose plugin is called ten seconds late. -/
def firstTrace : PyTrace cpython := firstBody.trace (slowly 10) 0

/-- The body of the retry engine, which reads the message that was left after 15 seconds. -/
def secondTrace : PyTrace cpython :=
  (RetryEngine.body conf notifiers onRetry).trace (slowly 0) 15

/-- The alarm was refused late, and refused again in time. -/
def lateCall : SystemState (anyRegular cpython Reading64) conf :=
  (system (anyRegular cpython Reading64) conf notifiers False).after
    ((system (anyRegular cpython Reading64) conf notifiers False).after
      { (initial () : SystemState (anyRegular cpython Reading64) conf) with
        log := deliver (fun _ => []) [(.alarm, transitionMessage (alarm "OK" "ALARM"))] }
      .notification 0 (transitionMessage (alarm "OK" "ALARM")) [] firstTrace ())
    .retry 0 onRetry [] secondTrace ()

/-- The moments of the two bodies. -/
def lateMoments : List ((Engine conf × PyEvent cpython) × Rat) :=
  (moments 10 0 firstTrace).map (fun y => ((.notification, y.1), y.2)) ++
    (moments 0 15 secondTrace).map fun y => ((.retry, y.1), y.2)

theorem map_fst_lateMoments : lateMoments.map Prod.fst = lateCall.history := by
  have htag : ∀ (i : Engine conf) (body : List (PyEvent cpython × Rat)),
      (body.map fun y => ((i, y.1), y.2)).map Prod.fst = (body.map Prod.fst).map (Prod.mk i) := by
    intro i body
    rw [List.map_map, List.map_map]
    rfl
  rw [lateMoments, List.map_append, htag, htag, map_fst_moments, map_fst_moments]
  rfl

theorem clocked_lateMoments : Clocked (engineClock cpython) lateMoments :=
  ⟨by decide +kernel, by decide +kernel, by decide +kernel⟩

theorem reading64_of_mem {t : Rat} (h : t ∈ [0, 10, 15, 30]) : Reading64 t := by
  simp only [List.mem_cons, List.not_mem_nil, or_false] at h
  rcases h with rfl | rfl | rfl | rfl
  · exact ⟨0, by norm_num⟩
  · exact ⟨10 * 2 ^ 22, by norm_num⟩
  · exact ⟨15 * 2 ^ 22, by norm_num⟩
  · exact ⟨30 * 2 ^ 22, by norm_num⟩

/-- The answers of this world are regular as far as its clock is. -/
theorem answers_slowly {p : Py cpython Unit} {delay now : Rat}
    (h : ∀ ev ∈ p.trace (slowly delay) now, ∀ t ∈ (engineClock cpython).reading ev,
      t ∈ [(0 : Rat), 10, 15, 30]) :
    Answers (system (anyRegular cpython Reading64) conf notifiers False) ()
      (p.trace (slowly delay) now) () := by
  induction p generalizing now with
  | ret u => exact .nil
  | raise x => exact .nil
  | perform e k ih =>
    have hrest := ih (slowly delay e now).1 fun ev hev => h ev (List.mem_cons_of_mem _ hev)
    refine .cons ⟨(store.answers_reply now _ e).admissible, ?_⟩ hrest
    have hfirst := h _ List.mem_cons_self
    cases e with
    | time => exact reading64_of_mem (hfirst now rfl)
    | _ => exact regular_reply (reading64_of_mem (t := 0) (by simp)) (.ok (.bool false)) _

theorem reachable_lateCall :
    Reachable (system (anyRegular cpython Reading64) conf notifiers False) lateCall := by
  have hinit : Reachable (system (anyRegular cpython Reading64) conf notifiers False)
      (initial ()) := .init trivial
  have halarm : (system (anyRegular cpython Reading64) conf notifiers False).env ()
      [(.alarm, transitionMessage (alarm "OK" "ALARM"))] () :=
    ⟨[transitionMessage (alarm "OK" "ALARM")], rfl, trivial⟩
  have hok₁ : (firstBody.run (slowly 10) 0).1 = .ok () := by decide +kernel
  have hok₂ : ((RetryEngine.body conf notifiers onRetry).run (slowly 0) 15).1 = .ok () := by
    decide +kernel
  have hfirst : Runs firstBody firstTrace (.ok ()) := runs_trace_of_eq hok₁
  have hsecond : Runs (RetryEngine.body conf notifiers onRetry) secondTrace (.ok ()) :=
    runs_trace_of_eq hok₂
  have hanswers₁ : Answers (system (anyRegular cpython Reading64) conf notifiers False) ()
      firstTrace () := answers_slowly (by decide +kernel)
  have hanswers₂ : Answers (system (anyRegular cpython Reading64) conf notifiers False) ()
      secondTrace () := answers_slowly (by decide +kernel)
  have hone := (hinit.step (.env halarm)).run_body (i := .notification) (o := 0) rfl rfl hfirst
    hanswers₁
  exact hone.run_body (i := .retry) (o := 0) rfl (by decide +kernel) hsecond hanswers₂

/-- The notification that an event hands to a plugin, with the moment. -/
def callOf (y : PyEvent cpython × Rat) : Option (Notification cpython × Rat) :=
  (attempted y.1).map fun n => (n, y.2)

theorem exists_of_callOf {y : PyEvent cpython × Rat} {n : Notification cpython} {t : Rat}
    (h : callOf y = some (n, t)) :
    ∃ notifier answer, y = (⟨.sendNotification notifier n, answer⟩, t) := by
  obtain ⟨⟨e, r⟩, u⟩ := y
  cases e with
  | sendNotification notifier m =>
    cases h
    exact ⟨notifier, r, rfl⟩
  | _ => cases h

/-- A step of the run up to its commit, with its moments. -/
theorem dates_lateCall : Dates lateMoments .notification (firstTrace.take 10)
      ((moments 10 0 firstTrace).take 10) ∧
    Dates lateMoments .retry (secondTrace.take 8) ((moments 0 15 secondTrace).take 8) := by
  refine ⟨⟨?_, ?_⟩, ⟨?_, ?_⟩⟩
  · rw [List.map_take, map_fst_moments]
  · exact ((List.take_sublist _ _).map _).trans (List.sublist_append_left _ _)
  · rw [List.map_take, map_fst_moments]
  · exact ((List.take_sublist _ _).map _).trans (List.sublist_append_right _ _)

theorem inBody_lateCall : InBody lateCall .notification 0 (transitionMessage (alarm "OK" "ALARM"))
      (firstTrace.take 10) ∧ InBody lateCall .retry 0 onRetry (secondTrace.take 8) := by
  have hcommit : ∀ (tr : PyTrace cpython) (k : Nat),
      (tr[k]?.map fun ev => ev.1.isCommit) = some true →
      ∃ ev, tr[k]? = some ev ∧ ev.1.isCommit = true := by
    intro tr k h
    exact Option.map_eq_some_iff.mp h
  obtain ⟨ev₁, hev₁, hc₁⟩ := hcommit firstTrace 10 (by decide +kernel)
  obtain ⟨ev₂, hev₂, hc₂⟩ := hcommit secondTrace 8 (by decide +kernel)
  constructor
  · refine Or.inl (List.mem_append_left _ (List.mem_append_right _ ?_))
    exact mem_commitSteps (N := system (anyRegular cpython Reading64) conf notifiers False)
      hev₁ hc₁
  · refine Or.inl (List.mem_append_right _ ?_)
    exact mem_commitSteps (N := system (anyRegular cpython Reading64) conf notifiers False)
      hev₂ hc₂

theorem retriedAfter_lateCall : ∃ n, RetriedAfter lateCall lateMoments .notification n 10 30 := by
  have hfirst : (((moments 10 0 firstTrace).take 10)[6]?.bind callOf).any (fun c =>
      decide (c.2 = 10) && decide (onRetry = .dumps c.1.toJson)) = true := by
    decide +kernel
  have hsecond : (((moments 0 15 secondTrace).take 8)[4]?.bind callOf).any (fun c =>
      decide (c.2 = 30)) = true := by
    decide +kernel
  obtain ⟨⟨n, t⟩, hn, hdoc⟩ := (Option.any_eq_true _ _).mp hfirst
  obtain ⟨⟨n', t'⟩, hn', ht'⟩ := (Option.any_eq_true _ _).mp hsecond
  simp only [Bool.and_eq_true, decide_eq_true_eq] at hdoc ht'
  obtain ⟨rfl, hdoc⟩ := hdoc
  subst ht'
  obtain ⟨y, hy, hcall⟩ := Option.bind_eq_some_iff.mp hn
  obtain ⟨y', hy', hcall'⟩ := Option.bind_eq_some_iff.mp hn'
  obtain ⟨notifier, answer, rfl⟩ := exists_of_callOf hcall
  obtain ⟨notifier', answer', rfl⟩ := exists_of_callOf hcall'
  refine ⟨n, 0, _, _, _, n, 0, _, _, n', inBody_lateCall.1, dates_lateCall.1,
    ⟨_, notifier, answer, _, eq_take_append_drop hy, ?_⟩, rfl, hdoc ▸ inBody_lateCall.2,
    dates_lateCall.2, notifier', answer', List.mem_of_getElem? hy'⟩
  rw [List.map_drop, List.map_take, map_fst_moments, ← hdoc]
  decide +kernel

end Deployment

open Deployment in
/-- The two calls of the slow run, a full interval after the first timestamp. -/
theorem waits_apart_lateCall : ∃ n stamp,
    RetriedAfter lateCall lateMoments .notification n 10 30 ∧
    n.notificationTimestamp = .float (.fin stamp) ∧ stamp ≤ 10 ∧ stamp + conf.interval ≤ 30 := by
  obtain ⟨n, hn⟩ := retriedAfter_lateCall
  obtain ⟨stamp, hstamp, hle, hwait, -⟩ := (waits_apart (W := anyRegular cpython Reading64)
    (fun h => h.2) (exact_cpython (by decide) (by decide)) reachable_lateCall map_fst_lateMoments
    clocked_lateMoments).1 .notification n 10 30 (Or.inl rfl) hn
  exact ⟨n, stamp, hn, hstamp, hle, hwait⟩

open Deployment in
/--
When ten seconds pass between the look at the clock and the first plugin call, the call of the
retry engine comes twenty seconds after it, and the interval is thirty.
-/
theorem calls_closer_than_interval : ∃ (s : SystemState (anyRegular cpython Reading64) conf)
    (dated : List ((Engine conf × PyEvent cpython) × Rat)) (n : Notification cpython)
    (t t' : Rat), Reachable (system (anyRegular cpython Reading64) conf notifiers False) s ∧
      dated.map Prod.fst = s.history ∧ Clocked (engineClock cpython) dated ∧
      RetriedAfter s dated .notification n t t' ∧ ¬ t + conf.interval ≤ t' := by
  obtain ⟨n, hn⟩ := retriedAfter_lateCall
  exact ⟨lateCall, lateMoments, n, 10, 30, reachable_lateCall, map_fst_lateMoments,
    clocked_lateMoments, hn, by decide +kernel⟩

end MonascaNotification
