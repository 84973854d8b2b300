import Mathlib.Logic.Relation
import MonascaNotification.Python.Text
import MonascaNotification.Spec.Plugins
import MonascaNotification.Spec.System

/-!
# What survives the queues

A notification that waits on a topic is a document, and the engine that takes it from there
builds it anew. The document has 17 of the 18 slots, and seven of them are read back: the rest
comes from the raw alarm, `metrics` included.

A `QueueStep` is what happens to a notification from one engine to the next. However many there are,
only the method, the count and the timestamp can differ in the end (`QueueSteps.eq`), and no plugin
writes the last two into its message.

`refresh_all_or_nothing` is about any document, also one that no engine wrote. `WellFormed` says
what the constructor needs of it: the keys, and a time in milliseconds.
-/

namespace MonascaNotification

open Infra Prog Network

section

variable {P : Platform} {W : Environment P} {conf : Config} {T : Notifiers} {mayCrash : Prop}

/-! ## One decoding -/

/-- Both tries of the query raise. -/
def bothRaise (P : Platform) (id : Json) : PyTrace P :=
  [⟨.getNotification id, (.error .databaseException : Except PyExn (Option (List Json)))⟩,
   ⟨.getNotification id, (.error .databaseException : Except PyExn (Option (List Json)))⟩]

theorem storedAnswer_bothRaise {id : Json} {answer : Except PyExn (Option (List Json))} :
    StoredAnswer P id answer (bothRaise P id) ↔ answer = .error .databaseException := by
  constructor
  · intro h
    cases h
    rfl
  · rintro rfl
    exact .second

theorem StoredAnswer.unique {id : Json} {answer answer' : Except PyExn (Option (List Json))}
    {tr : PyTrace P} (h : StoredAnswer P id answer tr) (h' : StoredAnswer P id answer' tr) :
    answer' = answer := by
  cases h <;> cases h' <;> rfl

/-- What comes out of a document that an engine wrote, for an answer that counts. -/
theorem runs_construct_toJson {n : Notification P} {answer : Except PyExn (Option (List Json))}
    {tr : PyTrace P} (h : StoredAnswer P n.id answer tr)
    {out : Except PyExn (Option (Notification P))} :
    Runs (constructNotificationObject n.toJson) tr out ↔
      out = .ok (Notification.answered { n with notificationTimestamp := .null } answer) := by
  rw [runs_constructNotificationObject_iff, decodeNotification_toJson]
  constructor
  · rintro ⟨answer', h', rfl⟩
    rw [StoredAnswer.unique h h']
  · rintro rfl
    exact ⟨answer, h, rfl⟩

/-! ## From one engine to the next -/

/-- `n` with the method that `m` has. -/
def Notification.withMethodOf (n m : Notification P) : Notification P :=
  { n with name := m.name, type := m.type, address := m.address, period := m.period }

/-- What the engines do to a notification: read it from a topic, count it, and stamp it. -/
inductive QueueStep : Notification P → Notification P → Prop where
  | read {n m tr} : Read (.dumps n.toJson) tr (some m) → QueueStep n m
  | counted {n count} : QueueStep n { n with retryCount := count }
  | stamped {n now} : QueueStep n (n.stamp now)

abbrev QueueSteps : Notification P → Notification P → Prop := Relation.ReflTransGen QueueStep

theorem QueueStep.eq {n m : Notification P} (h : QueueStep n m) : m = { n.withMethodOf m with
    retryCount := m.retryCount, notificationTimestamp := m.notificationTimestamp } := by
  cases h with
  | counted => rfl
  | stamped => rfl
  | read hread =>
    cases hread.refreshed with
    | stored _ => rfl
    | cached _ => rfl

theorem QueueSteps.eq {n m : Notification P} (h : QueueSteps n m) : m = { n.withMethodOf m with
    retryCount := m.retryCount, notificationTimestamp := m.notificationTimestamp } := by
  induction h with
  | refl => rfl
  | @tail b c _ hop ih =>
    have hc := hop.eq
    rw [ih] at hc
    exact hc

/-- No message has the count or the timestamp of the notification in it. -/
theorem Plugin.message_counted (plugin : Plugin) (R : Rendering) (mail : EmailConf)
    (date : String) (n : Notification P) (count stamp : Json) :
    plugin.message R mail date { n with retryCount := count, notificationTimestamp := stamp } =
      plugin.message R mail date n := by
  cases plugin <;> rfl

theorem QueueSteps.message {n m : Notification P} (h : QueueSteps n m) (plugin : Plugin)
    (R : Rendering) (mail : EmailConf) (date : String) :
    plugin.message R mail date m = plugin.message R mail date (n.withMethodOf m) := by
  have hm := plugin.message_counted R mail date (n.withMethodOf m) m.retryCount
    m.notificationTimestamp
  rw [← h.eq] at hm
  exact hm

/-! ## The queues of the engines -/

/-- The constructor gave the notification. -/
def IsConstructed (n : Notification P) : Prop :=
  ∃ id type name address period retryCount alarm,
    Notification.init P id type name address period retryCount alarm = .ok n

/-- The message is the document of a notification some hops after its construction. -/
def IsCarried (P : Platform) (m : KafkaValue) : Prop :=
  ∃ n₀ n : Notification P, IsConstructed n₀ ∧ QueueSteps n₀ n ∧ m = .dumps n.toJson

theorem NotificationEngine.Built.constructed {alarm : RawAlarm} {tr : PyTrace P}
    {ns : List (Notification P)} (h : NotificationEngine.Built P conf alarm tr ns)
    {n : Notification P} (hn : n ∈ ns) : IsConstructed n := by
  obtain ⟨p, o, h⟩ := h
  obtain ⟨_, rows, -, -, hbuilt⟩ := AlarmProcessor.runs_toNotification h (List.ne_nil_of_mem hn)
  clear h
  induction hbuilt with
  | nil => cases hn
  | cons hrow _ ih =>
    rcases List.mem_cons.mp hn with rfl | hn
    · exact ⟨_, _, _, _, _, _, _, hrow⟩
    · exact ih hn

/--
What an engine puts on a queue has a property that the steps keep, if what it builds has it, and
what it takes from a queue.
-/
theorem Engine.Performs.keeps {K : Notification P → Prop}
    (hstep : ∀ {n m : Notification P}, QueueStep n m → K n → K m) {i : Engine conf} {o : Nat}
    {m : KafkaValue} {tr : PyTrace P} {e : Effect P} (h : i.Performs T o m tr e)
    (hbuilt : i.source = .alarm → ∀ {tr₁ : PyTrace P} {ns : List (Notification P)}, tr₁ <+: tr →
      NotificationEngine.Built P conf ⟨0, o, m⟩ tr₁ ns → ∀ n ∈ ns, K n)
    (hqueued : i.source.IsQueue → ∃ n : Notification P, K n ∧ m = .dumps n.toJson)
    {p : Topic × KafkaValue} (hp : p ∈ e.published) (hqueue : p.1.IsQueue) :
    ∃ n : Notification P, K n ∧ p.2 = .dumps n.toJson := by
  have hsilent := Effect.not_silent_of_mem_published hp
  have hread : i.source.IsQueue → ∀ {tr₁ : PyTrace P} {n : Notification P},
      Read m tr₁ (some n) → K n := by
    intro hi tr₁ n hr
    obtain ⟨n₀, hn₀, rfl⟩ := hqueued hi
    exact hstep (.read hr) hn₀
  cases i with
  | notification =>
    cases h with
    | silent hs => exact absurd hs hsilent
    | @opens tr₁ tr₂ pre n post _ now topicName hb _ _ =>
      obtain rfl : p = (.periodic topicName, .dumps (n.stamp now).toJson) := by simpa using hp
      refine ⟨n.stamp now, hstep .stamped (hbuilt rfl ?_ hb n (by simp)), rfl⟩
      rw [List.append_assoc]
      exact List.prefix_append _ _
    | record _ _ _ =>
      obtain ⟨j, -, rfl⟩ := List.mem_map.mp hp
      cases hqueue
    | @requeue tr₁ _ _ ns ns' _ failed hb ho hh =>
      simp only [Effect.published_publish, List.map_map, List.mem_map, Function.comp] at hp
      obtain ⟨m', hm', rfl⟩ := hp
      obtain ⟨n', hn', -, now, -, rfl⟩ := hh.of_mem_failed hm'
      have hns : ∀ n ∈ ns, K n := by
        refine hbuilt rfl ?_ hb
        rw [List.append_assoc, List.append_assoc]
        exact List.prefix_append _ _
      obtain ⟨n, hn, rfl | ⟨now', rfl⟩⟩ := ho.of_mem hn'
      · exact ⟨_, hstep .stamped (hns _ hn), rfl⟩
      · exact ⟨_, hstep .stamped (hstep .stamped (hns n hn)), rfl⟩
    | _ => cases hp
  | retry =>
    cases h with
    | silent hs => exact absurd hs hsilent
    | record _ _ _ =>
      obtain ⟨j, -, rfl⟩ := List.mem_map.mp hp
      cases hqueue
    | @requeue _ _ _ n m' count now hr _ hh _ _ =>
      obtain ⟨-, -, t, rfl⟩ := hh.of_failed
      obtain rfl : p = (.retry,
          .dumps ({ n.stamp t with retryCount := count }.stamp now).toJson) := by
        simpa using hp
      exact ⟨_, hstep .stamped (hstep .counted (hstep .stamped (hread trivial hr))), rfl⟩
    | _ => cases hp
  | periodic self =>
    cases h with
    | silent hs => exact absurd hs hsilent
    | @forward _ _ _ _ n _ now now' sent failed hr _ _ _ hh heq =>
      obtain rfl : p = (.periodic self.topicName, .dumps (n.stamp now').toJson) := by
        simpa using hp
      exact ⟨_, hstep .stamped (hread trivial hr), rfl⟩
    | _ => cases hp

/-- What an engine puts on a queue has hopped from a construction to there. -/
theorem Engine.Performs.carried {i : Engine conf} {o : Nat} {m : KafkaValue} {tr : PyTrace P}
    {e : Effect P} (h : i.Performs T o m tr e) (hm : i.source.IsQueue → IsCarried P m)
    {p : Topic × KafkaValue} (hp : p ∈ e.published) (hqueue : p.1.IsQueue) :
    IsCarried P p.2 := by
  have hkept := h.keeps (K := fun n => ∃ n₀, IsConstructed n₀ ∧ QueueSteps n₀ n)
    (fun hop ⟨n₀, hn₀, hops⟩ => ⟨n₀, hn₀, hops.tail hop⟩)
    (fun _ _ _ _ hb n hn => ⟨n, hb.constructed hn, .refl⟩)
    (fun hi => by
      obtain ⟨n₀, n, hn₀, hops, hdoc⟩ := hm hi
      exact ⟨n, ⟨n₀, hn₀, hops⟩, hdoc⟩) hp hqueue
  obtain ⟨n, ⟨n₀, hn₀, hops⟩, hdoc⟩ := hkept
  exact ⟨n₀, n, hn₀, hops, hdoc⟩

/-- On the queues there are only documents of notifications that were constructed. -/
def carriedContract (W : Environment P) (conf : Config) (T : Notifiers) (mayCrash : Prop) :
    Contract (system W conf T mayCrash) where
  Valid := fun t m => t.IsQueue → IsCarried P m
  A := fun _ _ => True
  Φ := fun i o m tr e => i.Performs T o m tr e ∧ (i.source.IsQueue → IsCarried P m)
  Q := fun _ _ _ _ => True
  answer_admits := fun _ => trivial
  env_valid := by
    rintro w pubs w' ⟨alarms, rfl, -⟩ p hp hqueue
    obtain ⟨m, -, rfl⟩ := List.mem_map.mp hp
    cases hqueue
  handler_performs := fun hm _ h => ⟨Engine.performs_body h, hm⟩
  handler_returns := fun _ _ _ => trivial
  publish_valid := fun ⟨h, hm⟩ _ hp hqueue => h.carried hm hp hqueue

/--
**Decoding undoes encoding, over any number of hops.**

* When both queries raise, decoding gives every slot back except for the timestamp.
* When there is a row, the method is replaced by it, and nothing else.
* However often a notification is read, counted and stamped, it differs from the first one in
  the method, the count and the timestamp, and each plugin builds the message it would build
  from the first one with the current method.
* Every message on a retry or periodic topic, in every reachable state, is the document of a
  notification that came from a constructed one in this way.
-/
theorem decode_undoes_encode (P : Platform) :
    (∀ (n : Notification P) (out : Except PyExn (Option (Notification P))),
      Runs (constructNotificationObject n.toJson) (bothRaise P n.id) out ↔
        out = .ok (some { n with notificationTimestamp := .null })) ∧
    (∀ (n : Notification P) (name type address period : Json) (rest : List Json)
        (tr : PyTrace P) (out : Except PyExn (Option (Notification P))),
      StoredAnswer P n.id (.ok (some (name :: type :: address :: period :: rest))) tr →
        (Runs (constructNotificationObject n.toJson) tr out ↔
          out = .ok (some { n with name, type, address, period
                                   notificationTimestamp := .null }))) ∧
    (∀ n m : Notification P, QueueSteps n m →
      m = { n.withMethodOf m with
        retryCount := m.retryCount, notificationTimestamp := m.notificationTimestamp } ∧
      ∀ (plugin : Plugin) (R : Rendering) (mail : EmailConf) (date : String),
        plugin.message R mail date m = plugin.message R mail date (n.withMethodOf m)) ∧
    ∀ (W : Environment P) (conf : Config) (T : Notifiers) (mayCrash : Prop)
        (s : SystemState W conf), Reachable (system W conf T mayCrash) s →
      ∀ (topic : Topic) (message : KafkaValue), topic.IsQueue → message ∈ s.log topic →
        ∃ n₀ n : Notification P,
          IsConstructed n₀ ∧ QueueSteps n₀ n ∧ message = .dumps n.toJson := by
  refine ⟨?_, ?_, ?_, ?_⟩
  · intro n out
    exact runs_construct_toJson (storedAnswer_bothRaise.mpr rfl)
  · intro n name type address period rest tr out h
    exact runs_construct_toJson h
  · intro n m h
    exact ⟨h.eq, h.message⟩
  · intro W conf T mayCrash s h topic message hqueue hmem
    exact ((carriedContract W conf T mayCrash).inv_reachable h).valid topic message hmem hqueue

open Deployment in
/-- The notification that the first alarm leaves on the retry topic. -/
theorem decode_undoes_encode_onRetry : ∃ n₀ n : Notification cpython, IsConstructed n₀ ∧
    onRetry = .dumps n.toJson ∧
    Runs (constructNotificationObject n.toJson)
      [⟨.getNotification n.id, .ok (some [.str "pager", .str "pagerduty", .str "key", .int 0])⟩]
      (.ok (some { n with name := .str "pager", type := .str "pagerduty", address := .str "key"
                          period := .int 0, notificationTimestamp := .null })) ∧
    ∀ plugin : Plugin,
      plugin.message cpythonText ⟨some "hpcs.mon@hp.com", none⟩ "Thu, 01 Jan 1970 00:00:00" n =
        plugin.message cpythonText ⟨some "hpcs.mon@hp.com", none⟩ "Thu, 01 Jan 1970 00:00:00"
          (n₀.withMethodOf n) := by
  obtain ⟨-, hrow, hsteps, hqueue⟩ := decode_undoes_encode cpython
  obtain ⟨n₀, n, hn₀, hn, hdoc⟩ := hqueue (following cpython) conf notifiers False (started false)
    (reachable_started false) .retry onRetry trivial (by decide +kernel)
  refine ⟨n₀, n, hn₀, hdoc, ?_, fun plugin => (hsteps n₀ n hn).2 plugin _ _ _⟩
  exact (hrow n _ _ _ _ [] _ _ (.first (by simp))).mpr rfl

/-! ## Any document -/

/-- The queries for a method, when the two tries would have these outcomes. -/
def tries (P : Platform) (id : Json) (first second : Except PyExn (Option (List Json))) :
    PyTrace P :=
  match first with
  | .error .databaseException => [⟨.getNotification id, first⟩, ⟨.getNotification id, second⟩]
  | _ => [⟨.getNotification id, first⟩]

/-- The outcome that counts. -/
def lastTry (first second : Except PyExn (Option (List Json))) :
    Except PyExn (Option (List Json)) :=
  match first with
  | .error .databaseException => second
  | _ => first

theorem tries_of_ne {first : Except PyExn (Option (List Json))}
    (h : first ≠ .error .databaseException) (id : Json)
    (second : Except PyExn (Option (List Json))) :
    tries P id first second = [⟨.getNotification id, first⟩] := by
  unfold tries
  split
  · exact absurd rfl h
  · rfl

theorem lastTry_of_ne {first : Except PyExn (Option (List Json))}
    (h : first ≠ .error .databaseException) (second : Except PyExn (Option (List Json))) :
    lastTry first second = first := by
  unfold lastTry
  split
  · exact absurd rfl h
  · rfl

theorem storedAnswer_tries {id : Json} {first second answer : Except PyExn (Option (List Json))} :
    StoredAnswer P id answer (tries P id first second) ↔ answer = lastTry first second := by
  by_cases hfirst : first = .error .databaseException
  · subst hfirst
    constructor
    · intro h
      cases h
      rfl
    · rintro rfl
      exact .second
  · rw [tries_of_ne hfirst, lastTry_of_ne hfirst]
    constructor
    · intro h
      cases h
      rfl
    · rintro rfl
      exact .first hfirst

theorem StoredAnswer.exists_tries {id : Json} {answer : Except PyExn (Option (List Json))}
    {tr : PyTrace P} (h : StoredAnswer P id answer tr) :
    ∃ first second, tr = tries P id first second := by
  cases h with
  | first hne => exact ⟨answer, answer, (tries_of_ne hne id answer).symm⟩
  | second => exact ⟨.error .databaseException, answer, rfl⟩

theorem lastTry_eq_databaseException {first second : Except PyExn (Option (List Json))} :
    lastTry first second = .error .databaseException ↔
      first = .error .databaseException ∧ second = .error .databaseException := by
  by_cases hfirst : first = .error .databaseException
  · subst hfirst
    exact (and_iff_right rfl).symm
  · rw [lastTry_of_ne hfirst]
    exact iff_of_false hfirst fun h => hfirst h.1

/-- The queries of `construct_notification_object`. A document that is not decoded has none. -/
def queries (P : Platform) (data : Json) (first second : Except PyExn (Option (List Json))) :
    PyTrace P :=
  match decodeNotification P data with
  | .ok n => tries P n.id first second
  | .error _ => []

/-! ### Well-formed documents -/

/-- A dict with these keys. -/
def HasKeys (j : Json) (keys : List String) : Prop := ∀ key ∈ keys, ∃ v, j.getItem key = .ok v

/-- The keys that `construct_notification_object` reads. -/
def documentKeys : List String :=
  ["id", "type", "name", "address", "period", "retry_count", "raw_alarm"]

/-- The keys of an alarm that `Notification.__init__` reads. -/
def alarmKeys : List String :=
  ["alarmId", "alarmName", "timestamp", "stateChangeReason", "newState", "severity", "link",
   "lifecycleState", "tenantId", "metrics"]

/-- A finite float, or an int or bool that a float can hold. A thousandth of it is finite, too. -/
def IsTimestamp (P : Platform) (timestamp : Json) : Prop :=
  ∃ milliseconds seconds,
    (timestamp = .float (.fin milliseconds) ∨
      ∃ n, timestamp.asInt? = some n ∧ P.round n = .fin milliseconds) ∧
    P.round (milliseconds / 1000) = .fin seconds

/-- A document that a notification can be constructed from. -/
structure WellFormed (P : Platform) (data : Json) : Prop where
  keys : HasKeys data documentKeys
  alarmKeys : ∀ alarm, data.getItem "raw_alarm" = .ok alarm → HasKeys alarm alarmKeys
  timestamp : ∀ alarm, data.getItem "raw_alarm" = .ok alarm →
    ∀ timestamp, alarm.getItem "timestamp" = .ok timestamp → IsTimestamp P timestamp

theorem isTimestamp_iff {timestamp : Json} :
    IsTimestamp P timestamp ↔ ∃ q, timestamp.divByFloat P 1000 = .ok (.fin q) := by
  have hint : ∀ n : Int, (∃ milliseconds seconds, P.round n = .fin milliseconds ∧
      P.round (milliseconds / 1000) = .fin seconds) ↔
        ∃ q, (P.intToFloat n).map (fun x => P.divFloat x 1000) = .ok (.fin q) := by
    intro n
    rw [Platform.intToFloat]
    cases P.round n <;> simp [Except.map, Platform.divFloat]
  unfold IsTimestamp
  cases timestamp with
  | float x => cases x <;> simp [Json.divByFloat, Platform.divFloat, Json.asInt?]
  | int n => simpa [Json.divByFloat, Json.asInt?] using hint n
  | bool b => simpa [Json.divByFloat, Json.asInt?] using hint (if b then 1 else 0)
  | _ => simp [Json.divByFloat, Json.asInt?]

/-- The seconds that a slot can hold. -/
theorem exists_seconds_iff {timestamp : Json} :
    (∃ seconds, timestamp.divByFloat P 1000 = .ok seconds ∧ ∃ whole, seconds.toInt = .ok whole) ↔
      IsTimestamp P timestamp := by
  rw [isTimestamp_iff]
  constructor
  · rintro ⟨seconds, hdiv, whole, hwhole⟩
    cases seconds with
    | fin q => exact ⟨q, hdiv⟩
    | _ => cases hwhole
  · rintro ⟨q, hdiv⟩
    exact ⟨.fin q, hdiv, _, rfl⟩

theorem exists_ofAlarm_iff {alarm : Json} :
    (∃ slots, AlarmSlots.ofAlarm P alarm = .ok slots) ↔ HasKeys alarm alarmKeys ∧
      ∀ timestamp, alarm.getItem "timestamp" = .ok timestamp → IsTimestamp P timestamp := by
  unfold AlarmSlots.ofAlarm
  simp only [exists_bind_eq_ok]
  constructor
  · rintro ⟨_, hid, _, hname, timestamp, htimestamp, seconds, hdiv, whole, hwhole, _, hmessage, _,
      hstate, _, hseverity, _, hlink, _, hlifecycle, _, htenant, _, hmetrics, -⟩
    constructor
    · simp only [HasKeys, alarmKeys, List.forall_mem_cons]
      exact ⟨⟨_, hid⟩, ⟨_, hname⟩, ⟨_, htimestamp⟩, ⟨_, hmessage⟩, ⟨_, hstate⟩, ⟨_, hseverity⟩,
        ⟨_, hlink⟩, ⟨_, hlifecycle⟩, ⟨_, htenant⟩, ⟨_, hmetrics⟩, by simp⟩
    · intro timestamp' htimestamp'
      rw [htimestamp] at htimestamp'
      cases htimestamp'
      exact exists_seconds_iff.mp ⟨seconds, hdiv, whole, hwhole⟩
  · rintro ⟨hkeys, hseconds⟩
    simp only [HasKeys, alarmKeys, List.forall_mem_cons] at hkeys
    obtain ⟨⟨_, hid⟩, ⟨_, hname⟩, ⟨timestamp, htimestamp⟩, ⟨_, hmessage⟩, ⟨_, hstate⟩,
      ⟨_, hseverity⟩, ⟨_, hlink⟩, ⟨_, hlifecycle⟩, ⟨_, htenant⟩, ⟨_, hmetrics⟩, -⟩ := hkeys
    obtain ⟨seconds, hdiv, whole, hwhole⟩ :=
      exists_seconds_iff.mpr (hseconds timestamp htimestamp)
    exact ⟨_, hid, _, hname, timestamp, htimestamp, seconds, hdiv, whole, hwhole, _, hmessage, _,
      hstate, _, hseverity, _, hlink, _, hlifecycle, _, htenant, _, hmetrics, _, rfl⟩

theorem exists_decodeNotification_iff {data : Json} :
    (∃ n, decodeNotification P data = .ok n) ↔ WellFormed P data := by
  have hinit : ∀ {id type name address period retryCount alarm},
      (∃ n, Notification.init P id type name address period retryCount alarm = .ok n) ↔
        ∃ slots, AlarmSlots.ofAlarm P alarm = .ok slots := by
    intro id type name address period retryCount alarm
    cases hn : Notification.init P id type name address period retryCount alarm with
    | error x => simp [Notification.init_eq_error.mp hn]
    | ok n =>
      obtain ⟨-, -, -, -, -, -, rfl, -⟩ := Notification.init_eq_ok hn
      exact iff_of_true ⟨n, rfl⟩ ⟨_, n.derived⟩
  unfold decodeNotification
  simp only [exists_bind_eq_ok, hinit, exists_ofAlarm_iff]
  constructor
  · rintro ⟨_, hid, _, htype, _, hname, _, haddress, _, hperiod, _, hcount, alarm, hraw, hkeys,
      htimestamp⟩
    refine ⟨?_, ?_, ?_⟩
    · simp only [HasKeys, documentKeys, List.forall_mem_cons]
      exact ⟨⟨_, hid⟩, ⟨_, htype⟩, ⟨_, hname⟩, ⟨_, haddress⟩, ⟨_, hperiod⟩, ⟨_, hcount⟩, ⟨_, hraw⟩,
        by simp⟩
    · intro alarm' hraw'
      rw [hraw] at hraw'
      cases hraw'
      exact hkeys
    · intro alarm' hraw'
      rw [hraw] at hraw'
      cases hraw'
      exact htimestamp
  · rintro ⟨hkeys, halarm, htimestamp⟩
    simp only [HasKeys, documentKeys, List.forall_mem_cons] at hkeys
    obtain ⟨⟨_, hid⟩, ⟨_, htype⟩, ⟨_, hname⟩, ⟨_, haddress⟩, ⟨_, hperiod⟩, ⟨_, hcount⟩,
      ⟨alarm, hraw⟩, -⟩ := hkeys
    exact ⟨_, hid, _, htype, _, hname, _, haddress, _, hperiod, _, hcount, alarm, hraw,
      halarm alarm hraw, htimestamp alarm hraw⟩

/-- The slots that a refresh leaves alone are those of the document. -/
structure OfDocument (data : Json) (n : Notification P) : Prop where
  id : data.getItem "id" = .ok n.id
  retryCount : data.getItem "retry_count" = .ok n.retryCount
  rawAlarm : data.getItem "raw_alarm" = .ok n.rawAlarm
  slots : AlarmSlots.ofAlarm P n.rawAlarm = .ok n.toAlarmSlots

/-- The method is the one of the document. -/
structure MethodOfDocument (data : Json) (n : Notification P) : Prop where
  name : data.getItem "name" = .ok n.name
  type : data.getItem "type" = .ok n.type
  address : data.getItem "address" = .ok n.address
  period : data.getItem "period" = .ok n.period

/-- The method is the one of the row. -/
def MethodOfRow (row : List Json) (n : Notification P) : Prop :=
  ∃ rest, row = n.name :: n.type :: n.address :: n.period :: rest

theorem decodeNotification_ok {data : Json} {n : Notification P}
    (h : decodeNotification P data = .ok n) : OfDocument data n ∧ MethodOfDocument data n := by
  obtain ⟨id, hid, h⟩ := bind_eq_ok.mp h
  obtain ⟨type, htype, h⟩ := bind_eq_ok.mp h
  obtain ⟨name, hname, h⟩ := bind_eq_ok.mp h
  obtain ⟨address, haddress, h⟩ := bind_eq_ok.mp h
  obtain ⟨period, hperiod, h⟩ := bind_eq_ok.mp h
  obtain ⟨retryCount, hcount, h⟩ := bind_eq_ok.mp h
  obtain ⟨rawAlarm, hraw, h⟩ := bind_eq_ok.mp h
  obtain ⟨rfl, rfl, rfl, rfl, rfl, rfl, rfl, -⟩ := Notification.init_eq_ok h
  exact ⟨⟨hid, hcount, hraw, n.derived⟩, ⟨hname, htype, haddress, hperiod⟩⟩

/-- A notification that is left after an answer has one method or the other. -/
theorem Notification.method_of_answered {data : Json} {d n : Notification P}
    (hd : decodeNotification P data = .ok d) {answer : Except PyExn (Option (List Json))}
    (hn : d.answered answer = some n) : OfDocument data n ∧
      (answer = .error .databaseException ∧ MethodOfDocument data n ∨
        ∃ row, answer = .ok (some row) ∧ MethodOfRow row n) := by
  obtain ⟨hdoc, hmethod⟩ := decodeNotification_ok hd
  cases answer with
  | ok row? =>
    cases row? with
    | none => cases hn
    | some row =>
      by_cases hshort : row.length < 4
      · rw [Notification.answered_short d hshort] at hn
        cases hn
      · obtain ⟨name, type, address, period, rest, rfl⟩ := exists_method hshort
        cases hn
        exact ⟨⟨hdoc.id, hdoc.retryCount, hdoc.rawAlarm, hdoc.slots⟩,
          Or.inr ⟨_, rfl, rest, rfl⟩⟩
  | error x =>
    rw [Notification.answered_error] at hn
    split at hn
    · next hx =>
      cases hn
      exact ⟨hdoc, Or.inl ⟨by rw [hx], hmethod⟩⟩
    · cases hn

/--
**Refreshing is all-or-nothing and never raises.** For every document and every two outcomes of
the query, `construct_notification_object` returns `r`, where

* a notification has the slots of the document, and the method is all from the document or all
  from the row;
* the method is from the document if that is well formed and both tries raised, and otherwise from
  the row (which can hold the same values);
* nothing is returned when a try answered that there is no such method.

The second part says that these are all the ways it can run.
-/
theorem refresh_all_or_nothing (P : Platform) (data : Json) :
    (∀ first second : Except PyExn (Option (List Json)), ∃ r : Option (Notification P),
      (∀ out, Runs (constructNotificationObject data) (queries P data first second) out ↔
        out = .ok r) ∧
      (∀ n, r = some n → OfDocument data n ∧
        (MethodOfDocument data n ∨
          ∃ row, lastTry first second = .ok (some row) ∧ MethodOfRow row n)) ∧
      ((∃ n, r = some n ∧ MethodOfDocument data n) ↔ WellFormed P data ∧
        (first = .error .databaseException ∧ second = .error .databaseException ∨
          ∃ n row, lastTry first second = .ok (some row) ∧ MethodOfRow row n ∧
            MethodOfDocument (P := P) data n)) ∧
      (∀ n, r = some n →
        ¬ (first = .error .databaseException ∧ second = .error .databaseException) →
        ∃ row, lastTry first second = .ok (some row) ∧ MethodOfRow row n) ∧
      (first = .ok none ∨ first = .error .databaseException ∧ second = .ok none → r = none)) ∧
    ∀ (tr : PyTrace P) (out : Except PyExn (Option (Notification P))),
      Runs (constructNotificationObject data) tr out →
        ∃ first second, tr = queries P data first second := by
  constructor
  · intro first second
    cases hd : decodeNotification P data with
    | error x =>
      have hqueries : queries P data first second = [] := by
        rw [queries, hd]
      refine ⟨none, ?_, nofun, ?_, nofun, fun _ => rfl⟩
      · intro out
        rw [runs_constructNotificationObject_iff, hd, hqueries]
        exact and_iff_right rfl
      · refine iff_of_false (by rintro ⟨n, hn, -⟩; cases hn) ?_
        rintro ⟨hwell, -⟩
        obtain ⟨n, hn⟩ := exists_decodeNotification_iff.mpr hwell
        rw [hd] at hn
        cases hn
    | ok d =>
      have hqueries : queries P data first second = tries P d.id first second := by
        rw [queries, hd]
      obtain ⟨-, hmethod⟩ := decodeNotification_ok hd
      have hboth : lastTry first second = .error .databaseException ↔ _ :=
        lastTry_eq_databaseException
      refine ⟨d.answered (lastTry first second), ?_, ?_, ?_, ?_, ?_⟩
      · intro out
        rw [runs_constructNotificationObject_iff, hd, hqueries]
        simp only [storedAnswer_tries]
        exact exists_eq_left
      · intro n hn
        obtain ⟨hdoc, ⟨-, hm⟩ | hrow⟩ := Notification.method_of_answered hd hn
        · exact ⟨hdoc, Or.inl hm⟩
        · exact ⟨hdoc, Or.inr hrow⟩
      · constructor
        · rintro ⟨n, hn, hm⟩
          refine ⟨exists_decodeNotification_iff.mp ⟨d, hd⟩, ?_⟩
          obtain ⟨-, ⟨hraise, -⟩ | ⟨row, hrow, hmrow⟩⟩ := Notification.method_of_answered hd hn
          · exact Or.inl (hboth.mp hraise)
          · exact Or.inr ⟨n, row, hrow, hmrow, hm⟩
        · rintro ⟨-, hraise | ⟨n, row, hrow, ⟨rest, rfl⟩, hm⟩⟩
          · rw [hboth.mpr hraise]
            exact ⟨d, rfl, hmethod⟩
          · rw [hrow]
            exact ⟨_, rfl, hm.name, hm.type, hm.address, hm.period⟩
      · intro n hn hne
        obtain ⟨-, ⟨hraise, -⟩ | hrow⟩ := Notification.method_of_answered hd hn
        · exact absurd (hboth.mp hraise) hne
        · exact hrow
      · rintro (rfl | ⟨rfl, rfl⟩) <;> rfl
  · intro tr out h
    rw [runs_constructNotificationObject_iff] at h
    unfold queries
    cases hd : decodeNotification P data with
    | error x =>
      rw [hd] at h
      exact ⟨.ok none, .ok none, h.1⟩
    | ok d =>
      rw [hd] at h
      obtain ⟨answer, hanswer, -⟩ := h
      exact hanswer.exists_tries

end

namespace Deployment

/-- The document of a method and an alarm. It has no timestamp, and need not have one. -/
def methodDocument : Json := .obj
  [("id", .str "1"), ("name", .str "me"), ("type", .str "email"), ("address", .str "me@here.com"),
   ("period", .int 60), ("retry_count", .int 0), ("raw_alarm", alarm "OK" "ALARM")]

/-- What it has is enough, when both tries raise. -/
theorem refresh_all_or_nothing_bothRaise : WellFormed cpython methodDocument ∧
    ∃ n, Runs (constructNotificationObject methodDocument) (bothRaise cpython (.str "1"))
        (.ok (some n)) ∧
      MethodOfDocument methodDocument n := by
  have hwell : WellFormed cpython methodDocument := by
    refine ⟨?_, ?_, ?_⟩
    · simp [HasKeys, documentKeys, methodDocument, Json.getItem, List.lookup_cons]
    · rintro _ ⟨⟩
      simp [HasKeys, alarmKeys, alarm, Json.getItem, List.lookup_cons]
    · rintro _ ⟨⟩ _ ⟨⟩
      exact isTimestamp_iff.mpr ⟨0, by decide +kernel⟩
  have hqueries : queries cpython methodDocument (.error .databaseException)
      (.error .databaseException) = bothRaise cpython (.str "1") := by
    obtain ⟨d, hd⟩ := exists_decodeNotification_iff.mpr hwell
    rw [queries, hd, Except.ok.inj (decodeNotification_ok hd).1.id]
    rfl
  obtain ⟨r, hruns, -, hmethod, -⟩ := (refresh_all_or_nothing cpython methodDocument).1
    (.error .databaseException) (.error .databaseException)
  obtain ⟨n, rfl, hn⟩ := hmethod.mpr ⟨hwell, Or.inl ⟨rfl, rfl⟩⟩
  rw [hqueries] at hruns
  exact ⟨hwell, n, (hruns (.ok (some n))).mpr rfl, hn⟩

end Deployment

end MonascaNotification
