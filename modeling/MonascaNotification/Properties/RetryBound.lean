import MonascaNotification.Spec.System

/-!
# Retries are counted and bounded

The life of a notification on the retry topic: the notification engine puts it there with
count 0, and each retry step takes its message off and may put one back (`Life`). The count
that the message carries is the number of attempts that failed, so the comparison with
`max_attempts` bounds the attempts.

`Course` is the invariant: a notification is waiting with the right count, or its life is over.
-/

namespace MonascaNotification

open Infra Prog Network

section

variable {P : Platform} {W : Environment P} {conf : Config} {T : Notifiers}

/-! ## Failed attempts -/

/-- The notification that the plugin of the event did not accept. -/
def refused : PyEvent P → Option (Notification P)
  | ⟨.sendNotification _ n, answer⟩ => if accepted answer then none else some n
  | _ => none

def failures (tr : PyTrace P) : List (Notification P) := tr.filterMap refused

@[simp] theorem failures_append (tr₁ tr₂ : PyTrace P) :
    failures (tr₁ ++ tr₂) = failures tr₁ ++ failures tr₂ :=
  List.filterMap_append

/-- Every attempt was accepted or refused. -/
theorem length_sends (tr : PyTrace P) :
    (sends tr).length = (deliveries tr).length + (failures tr).length := by
  induction tr with
  | nil => rfl
  | cons ev tr ih =>
    have hone : (attempted ev).toList.length =
        (delivered ev).toList.length + (refused ev).toList.length := by
      obtain ⟨e, r⟩ := ev
      cases e with
      | sendNotification notifier n =>
        by_cases hacc : accepted r = true
        · simp [attempted, delivered, refused, hacc]
        · simp [attempted, delivered, refused, hacc]
      | _ => rfl
    have hfail : failures (ev :: tr) = (refused ev).toList ++ failures tr := by
      cases h : refused ev <;> simp [failures, h]
    rw [sends_cons, deliveries_cons, hfail]
    simp only [List.length_append]
    omega

/-! ## The life of a notification -/

/-- The messages that a step puts back on the retry topic. -/
def requeued (tr : PyTrace P) : List KafkaValue :=
  (publications tr).filterMap fun p => if p.1 = .retry then some p.2 else none

@[simp] theorem requeued_append (tr₁ tr₂ : PyTrace P) :
    requeued (tr₁ ++ tr₂) = requeued tr₁ ++ requeued tr₂ := by
  simp [requeued]

theorem requeued_of_publications {tr : PyTrace P} (h : publications tr = []) :
    requeued tr = [] := by
  simp [requeued, h]

/-- The message of a notification whose first send failed. -/
def FirstFailed (P : Platform) (conf : Config) (T : Notifiers) (message : KafkaValue) : Prop :=
  ∃ (alarm : RawAlarm) (tr : PyTrace P) (docs : List Json) (j : Json),
    Prog.Performs (NotificationEngine.body conf T alarm) tr (.publish .retry docs) ∧
      j ∈ docs ∧ message = .dumps j

/--
`Life conf T first trs pending`: after the retry steps with the traces `trs`, each on a message
that was pending and then no longer is, the messages `pending` are left of what started as
`first`. The traces hold every answer of the database and of the plugins.
-/
inductive Life (conf : Config) (T : Notifiers) (first : KafkaValue) :
    List (PyTrace P) → List KafkaValue → Prop where
  | queued : Life conf T first [] [first]
  | retried {trs m pending tr} : Life conf T first trs (m :: pending) →
      Prog.Performs (RetryEngine.body conf T m) tr .commit →
      Life conf T first (trs ++ [tr]) (pending ++ requeued tr)

/-- Each answer for a method says that it is stored with a configured type, or is no answer. -/
def StaysStored (T : Notifiers) (tr : PyTrace P) : Prop :=
  ∀ id (answer : Except PyExn (Option (List Json))),
    (⟨.getNotification id, answer⟩ : PyEvent P) ∈ tr → answer = .error .databaseException ∨
      ∃ name type address period rest notifier,
        answer = .ok (some (name :: type :: address :: period :: rest)) ∧
          T.find? type = some notifier

/-! ## One retry step -/

/-- What a committed retry step does with a notification that was retried `count` times. -/
inductive Hop (conf : Config) (T : Notifiers) (n : Notification P) (count : Int)
    (tr : PyTrace P) : Prop where
  | dropped : sends tr = [] → requeued tr = [] →
      (T.find? n.type ≠ none → ¬ StaysStored T tr) → Hop conf T n count tr
  | accepted (m : Notification P) : sends tr = [m] → deliveries tr = [m] → requeued tr = [] →
      Hop conf T n count tr
  | again (m m' : Notification P) : sends tr = [m] → deliveries tr = [] →
      count + 1 < conf.maxAttempts → requeued tr = [.dumps m'.toJson] →
      m'.retryCount = .int (count + 1) → T.find? m'.type ≠ none → Hop conf T n count tr
  | exhausted (m : Notification P) : sends tr = [m] → deliveries tr = [] →
      ¬ count + 1 < conf.maxAttempts → requeued tr = [] → Hop conf T n count tr

/-- While the method stays stored, the notification that is read has a configured type. -/
theorem Refreshed.find?_ne_none {n : Notification P} {tr : PyTrace P}
    {r : Option (Notification P)} (h : Refreshed n tr r) (hst : StaysStored T tr)
    (hn : T.find? n.type ≠ none) : ∃ m, r = .some m ∧ T.find? m.type ≠ none := by
  cases h with
  | deleted h =>
    rcases hst _ _ h.mem with hx | ⟨_, _, _, _, _, _, hx, -⟩ <;> cases hx
  | stored h =>
    rcases hst _ _ h.mem with hx | ⟨_, _, _, _, _, _, hx, hfind⟩
    · cases hx
    · cases hx
      exact ⟨_, rfl, by simp [hfind]⟩
  | cached _ => exact ⟨n, rfl, hn⟩
  | shortRow h hlen =>
    rcases hst _ _ h.mem with hx | ⟨_, _, _, _, _, _, hx, -⟩
    · cases hx
    · cases hx
      exact absurd hlen (by simp)
  | failed h hne =>
    rcases hst _ _ h.mem with hx | ⟨_, _, _, _, _, _, hx, -⟩
    · cases hx
      exact absurd rfl hne
    · cases hx

theorem StaysStored.left {tr₁ tr₂ : PyTrace P} (h : StaysStored T (tr₁ ++ tr₂)) :
    StaysStored T tr₁ :=
  fun id answer hmem => h id answer (List.mem_append_left _ hmem)

theorem RetryEngine.hop {n : Notification P} {count : Int} {tr : PyTrace P}
    (h : Performs conf T (.dumps n.toJson) tr .commit) (hcount : n.retryCount = .int count) :
    Hop conf T n count tr := by
  -- the count that is read is the one on the message, and is increased by one
  have hsucc : ∀ {tr₁ : PyTrace P} {m : Notification P} {now : Rat} {c : Json},
      Read (.dumps n.toJson) tr₁ (some m) → (m.stamp now).retryCount.succ P = .ok c →
      c = .int (count + 1) := by
    intro tr₁ m now c hr hc
    have hm : m.retryCount = .int count := hr.refreshed.some.2.2.1.trans hcount
    rw [Notification.stamp_retryCount, hm] at hc
    cases hc
    rfl
  cases h with
  | silent hs => cases hs
  | drop hr =>
    refine .dropped hr.quiet.sends (requeued_of_publications hr.quiet.publications) ?_
    intro hn hst
    obtain ⟨m, hm, -⟩ := hr.refreshed.find?_ne_none hst hn
    cases hm
  | @invalid tr₁ tr₂ tr₃ m hr hw hh =>
    obtain ⟨hfind, hsends⟩ := hh.of_invalid
    refine .dropped ?_ ?_ fun hn hst => ?_
    · simp [hr.quiet.sends, hw.quiet.sends, hsends]
    · exact requeued_of_publications
        (by simp [hr.quiet.publications, hw.quiet.publications, hh.publications])
    · obtain ⟨m', hm', hne⟩ := hr.refreshed.find?_ne_none hst.left.left hn
      cases hm'
      exact hne hfind
  | @sent tr₁ tr₂ tr₃ m₀ m hr hw hh =>
    obtain ⟨-, hsends, -⟩ := hh.of_sent
    refine .accepted m ?_ ?_ ?_
    · simp [hr.quiet.sends, hw.quiet.sends, hsends, sends_cons, attempted]
    · simp [hr.quiet.deliveries, hw.quiet.deliveries, hh.deliveries, deliveries_cons, delivered]
    · simp [MonascaNotification.requeued, hr.quiet.publications, hw.quiet.publications,
        hh.publications, Effect.published]
  | @requeued tr₁ tr₂ tr₃ m₀ m c now hr hw hh hc hlt =>
    obtain ⟨hfind, hsends, t, rfl⟩ := hh.of_failed
    obtain rfl := hsucc hr hc
    have hlt : count + 1 < conf.maxAttempts := by simpa [Json.ltInt, Json.asInt?] using hlt
    refine .again (m₀.stamp t)
      ({ m₀.stamp t with retryCount := .int (count + 1) }.stamp now) ?_ ?_ hlt ?_ rfl hfind
    · simp [hr.quiet.sends, hw.quiet.sends, hsends, sends_cons, attempted]
    · simp [hr.quiet.deliveries, hw.quiet.deliveries, hh.deliveries, deliveries_cons, delivered]
    · simp [MonascaNotification.requeued, hr.quiet.publications, hw.quiet.publications,
        hh.publications, Effect.published]
  | @exhausted tr₁ tr₂ tr₃ m₀ m c now hr hw hh hc hge =>
    obtain ⟨-, hsends, t, rfl⟩ := hh.of_failed
    obtain rfl := hsucc hr hc
    have hge : ¬ count + 1 < conf.maxAttempts := by simpa [Json.ltInt, Json.asInt?] using hge
    refine .exhausted (m₀.stamp t) ?_ ?_ hge ?_
    · simp [hr.quiet.sends, hw.quiet.sends, hsends, sends_cons, attempted]
    · simp [hr.quiet.deliveries, hw.quiet.deliveries, hh.deliveries, deliveries_cons, delivered]
    · simp [MonascaNotification.requeued, hr.quiet.publications, hw.quiet.publications,
        hh.publications, Effect.published]

/-! ## The whole life -/

/-- How far a life has come. -/
inductive Course (conf : Config) (T : Notifiers) (trs : List (PyTrace P)) :
    List KafkaValue → Prop where
  /-- Every retry so far was an attempt that failed, and the message carries their number. -/
  | waiting (n : Notification P) : n.retryCount = .int (failures trs.flatten).length →
      (failures trs.flatten).length = trs.length → deliveries trs.flatten = [] →
      (trs.length = 0 ∨ (trs.length : Int) < conf.maxAttempts) → T.find? n.type ≠ none →
      Course conf T trs [.dumps n.toJson]
  | ended : ((sends trs.flatten).length : Int) ≤ max 1 conf.maxAttempts →
      (trs.length : Int) ≤ max 1 conf.maxAttempts →
      (deliveries trs.flatten = [] → StaysStored T trs.flatten →
        ((sends trs.flatten).length : Int) = max 1 conf.maxAttempts) →
      Course conf T trs []

/-- The message of a first failure carries count 0 and a configured type. -/
theorem FirstFailed.document {m : KafkaValue} (h : FirstFailed P conf T m) :
    ∃ n : Notification P, m = .dumps n.toJson ∧ n.retryCount = .int 0 ∧
      T.find? n.type ≠ none := by
  obtain ⟨alarm, tr, docs, j, hperf, hj, rfl⟩ := h
  cases NotificationEngine.performs_body hperf with
  | silent hs => cases hs
  | @requeue tr₁ tr₂ tr₃ ns ns' sent failed hb ho hh =>
    obtain ⟨m, hm, rfl⟩ := List.mem_map.mp hj
    obtain ⟨n', hn', hfind, now, -, rfl⟩ := hh.of_mem_failed hm
    obtain ⟨n, hn, hrel⟩ := ho.of_mem hn'
    have hcount : n'.retryCount = .int 0 := by
      rcases hrel with rfl | ⟨t, rfl⟩
      · exact hb.retryCount hn
      · exact (Notification.stamp_retryCount n t).trans (hb.retryCount hn)
    exact ⟨n'.stamp now, rfl, hcount, hfind⟩

/-- **One step of a life.** -/
theorem Course.hop {m : KafkaValue} {pending : List KafkaValue} {trs : List (PyTrace P)}
    {tr : PyTrace P} (hc : Course conf T trs (m :: pending))
    (h : RetryEngine.Performs conf T m tr .commit) :
    Course conf T (trs ++ [tr]) (pending ++ requeued tr) := by
  cases hc with
  | waiting n hcount hall hdel hlt hfind =>
    rw [hall] at hcount
    have hsends : (sends trs.flatten).length = trs.length := by
      rw [length_sends, hdel, hall, List.length_nil, Nat.zero_add]
    have hflat : (trs ++ [tr]).flatten = trs.flatten ++ tr := by simp
    have hlen : (trs ++ [tr]).length = trs.length + 1 := by simp
    cases RetryEngine.hop h hcount with
    | dropped hs hq hst =>
      rw [hq]
      refine .ended ?_ ?_ fun _ hstays => ?_
      · rw [hflat, sends_append, List.length_append, hsends, hs, List.length_nil]
        omega
      · omega
      · rw [hflat] at hstays
        exact absurd (fun id answer hmem => hstays id answer (List.mem_append_right _ hmem))
          (hst hfind)
    | accepted n' hs hd hq =>
      rw [hq]
      have hcnt : (sends (trs ++ [tr]).flatten).length = trs.length + 1 := by
        rw [hflat, sends_append, List.length_append, hsends, hs, List.length_singleton]
      refine .ended (by omega) (by omega) fun hnil _ => ?_
      rw [hflat, deliveries_append, hd] at hnil
      exact absurd hnil (by simp)
    | again n' n'' hs hd hmax hq hn'' hfind' =>
      have hfail : (failures (trs ++ [tr]).flatten).length = trs.length + 1 := by
        have htr := length_sends tr
        rw [hs, hd] at htr
        rw [hflat, failures_append, List.length_append, hall]
        simpa using htr.symm
      rw [hq]
      refine .waiting n'' ?_ ?_ ?_ ?_ hfind'
      · rw [hn'', hfail]
        rfl
      · rw [hfail, hlen]
      · rw [hflat, deliveries_append, hdel, hd]
        rfl
      · rw [hlen]
        exact Or.inr hmax
    | exhausted n' hs hd hmax hq =>
      rw [hq]
      have hcnt : (sends (trs ++ [tr]).flatten).length = trs.length + 1 := by
        rw [hflat, sends_append, List.length_append, hsends, hs, List.length_singleton]
      exact .ended (by omega) (by omega) fun _ _ => by omega

theorem course {first : KafkaValue} {trs : List (PyTrace P)} {pending : List KafkaValue}
    (hfirst : FirstFailed P conf T first) (h : Life conf T first trs pending) :
    Course conf T trs pending := by
  induction h with
  | queued =>
    obtain ⟨n, rfl, hcount, hfind⟩ := hfirst.document
    exact .waiting n hcount rfl rfl (Or.inl rfl) hfind
  | retried _ hperf ih => exact ih.hop (RetryEngine.performs_body hperf)

/--
**Retries are bounded and counted.** At every point of the life of a notification whose first
send failed:

* the retry engine has called a plugin for it at most `max 1 max_attempts` times
* a message that is left carries the number of attempts that failed
* after an attempt that succeeded no message is left
* if the method stayed stored with a configured type and no attempt succeeded, no message is
  left exactly when there were `max 1 max_attempts` attempts
* there were at most so many steps
-/
theorem retries_bounded {first : KafkaValue} {trs : List (PyTrace P)} {pending : List KafkaValue}
    (hfirst : FirstFailed P conf T first) (h : Life conf T first trs pending) :
    ((sends trs.flatten).length : Int) ≤ max 1 conf.maxAttempts ∧
    (∀ m ∈ pending, ∃ n : Notification P, m = .dumps n.toJson ∧
      n.retryCount = .int (failures trs.flatten).length) ∧
    (deliveries trs.flatten ≠ [] → pending = []) ∧
    (StaysStored T trs.flatten → deliveries trs.flatten = [] →
      (pending = [] ↔ ((sends trs.flatten).length : Int) = max 1 conf.maxAttempts)) ∧
    (trs.length : Int) ≤ max 1 conf.maxAttempts := by
  cases course hfirst h with
  | waiting n hcount hall hdel hlt hfind =>
    have hsends : (sends trs.flatten).length = trs.length := by
      rw [length_sends, hdel, hall, List.length_nil, Nat.zero_add]
    refine ⟨by omega, ?_, fun hne => absurd hdel hne, fun _ _ => ?_, by omega⟩
    · intro m hm
      cases List.mem_singleton.mp hm
      exact ⟨n, rfl, hcount⟩
    · refine iff_of_false (by simp) ?_
      omega
  | ended hle hlen hexact =>
    refine ⟨hle, by simp, fun _ => rfl, fun hst hdel => ?_, hlen⟩
    exact iff_of_true rfl (hexact hdel hst)

/-! ## Lives in the runs of the engines -/

theorem mem_requeued {m : KafkaValue} {tr : PyTrace P} :
    m ∈ requeued tr ↔ ∃ ev ∈ tr, (Topic.retry, m) ∈ ev.1.published := by
  simp only [requeued, publications, List.mem_filterMap, List.mem_flatMap]
  constructor
  · rintro ⟨⟨topic, m'⟩, ⟨ev, hev, hpub⟩, heq⟩
    split at heq
    · next htopic =>
      cases heq
      exact ⟨ev, hev, htopic ▸ hpub⟩
    · cases heq
  · rintro ⟨ev, hev, hpub⟩
    exact ⟨_, ⟨ev, hev, hpub⟩, by simp⟩

/-- Putting a message back is the last effect after a failure. -/
theorem RetryEngine.runs_requeue {n : Notification P} {tr : PyTrace P} {docs : List Json}
    (h : Prog.Performs (afterFailure conf n) tr (.publish .retry docs)) :
    Runs (afterFailure conf n) (tr ++ [publishes P .retry docs]) (.ok ()) := by
  rcases performs_afterFailure h with hs | ⟨count, now, hcount, hlt, rfl, heq⟩
  · cases hs
  cases heq
  unfold afterFailure
  rw [hcount]
  refine runs_bind_ok.mpr ⟨[], _, count, rfl, by simp, ?_⟩
  refine runs_bind_ok.mpr ⟨[⟨.time, now⟩], _, now, rfl, ⟨now, [], rfl, rfl, rfl⟩, ?_⟩
  rw [hlt]
  exact ⟨(), [], rfl, rfl, rfl⟩

/-- After it has put a message back, the retry engine commits. -/
theorem RetryEngine.commits_after_requeue {message : KafkaValue} {tr : PyTrace P}
    {docs : List Json}
    (h : Prog.Performs (body conf T message) tr (.publish .retry docs)) :
    Prog.Performs (body conf T message) (tr ++ [publishes P .retry docs]) .commit := by
  have hright : ∀ {α β : Type} {p : Py P α} {f : α → Py P β} {tr₁ tr₂ : PyTrace P} {a : α}
      {e : Effect P}, Runs p tr₁ (.ok a) → Prog.Performs (f a) tr₂ e →
        Prog.Performs (p.bind f) (tr₁ ++ tr₂) e :=
    fun h₁ h₂ => performs_bind.mpr (Or.inr ⟨_, _, _, rfl, h₁, h₂⟩)
  unfold body at h ⊢
  replace h := performs_bind.mp h
  rcases h with h | ⟨tr₁, tr', data, rfl, h₁, h⟩
  · exact absurd h performs_ofExcept
  rw [List.append_assoc]
  refine hright h₁ ?_
  replace h := performs_bind.mp h
  rcases h with h | ⟨tr₂, tr', r, rfl, h₂, h⟩
  · exact ((uses_constructNotificationObject data).performs h).elim
  rw [List.append_assoc]
  refine hright h₂ ?_
  cases r with
  | none => cases (performs_commit h).2
  | some n =>
    dsimp only at h ⊢
    replace h := performs_bind.mp h
    rcases h with h | ⟨tr₃, tr', duration, rfl, h₃, h⟩
    · exact ((uses_waitDuration _ _).performs h).elim
    rw [List.append_assoc]
    refine hright h₃ ?_
    replace h := performs_bind.mp h
    rcases h with h | ⟨tr₄, tr', _, rfl, h₄, h⟩
    · exact ((uses_waitFor _).performs h).elim
    rw [List.append_assoc]
    refine hright h₄ ?_
    replace h := performs_bind.mp h
    rcases h with h | ⟨tr₅, tr', ⟨sent, failed⟩, rfl, h₅, h⟩
    · exact ((uses_send T [n]).performs h).elim
    rw [List.append_assoc]
    refine hright h₅ ?_
    rcases (runs_send h₅).singleton with
      ⟨-, rfl, rfl, -⟩ | ⟨-, now, -, -, ⟨rfl, rfl⟩ | ⟨rfl, rfl⟩⟩
    · cases (performs_commit h).2
    · dsimp only at h
      replace h := performs_bind.mp h
      rcases h with h | ⟨_, _, _, -, -, h⟩
      · cases (performs_publish h).2
      · cases (performs_commit h).2
    · dsimp only at h ⊢
      replace h := performs_bind.mp h
      rcases h with h | ⟨_, _, _, -, -, h⟩
      · exact performs_bind.mpr
          (Or.inr ⟨_, [], (), (List.append_nil _).symm, runs_requeue h, Or.inl ⟨rfl, rfl⟩⟩)
      · cases (performs_commit h).2

theorem FirstFailed.of_mem_published {alarm : RawAlarm} {tr : PyTrace P} {e : Effect P}
    (h : Prog.Performs (NotificationEngine.body conf T alarm) tr e) {m : KafkaValue}
    (hm : (Topic.retry, m) ∈ e.published) : FirstFailed P conf T m := by
  cases e with
  | publish topic docs =>
    simp only [Effect.published_publish, List.mem_map, Prod.mk.injEq] at hm
    obtain ⟨j, hj, rfl, rfl⟩ := hm
    exact ⟨alarm, tr, docs, j, h, hj, rfl⟩
  | _ => cases hm

theorem Course.eq_singleton {trs : List (PyTrace P)} {pending : List KafkaValue}
    (h : Course conf T trs pending) {m : KafkaValue} (hm : m ∈ pending) : pending = [m] := by
  cases h with
  | waiting n _ _ _ _ _ => rw [List.mem_singleton.mp hm]
  | ended => cases hm

theorem FirstFailed.of_mem_requeued {alarm : RawAlarm} {tr : PyTrace P} {out : Except PyExn Unit}
    (h : Runs (NotificationEngine.body conf T alarm) tr out) {m : KafkaValue}
    (hm : m ∈ requeued tr) : FirstFailed P conf T m := by
  obtain ⟨ev, hev, hpub⟩ := mem_requeued.mp hm
  obtain ⟨tr₁, tr₂, rfl⟩ := List.append_of_mem hev
  exact .of_mem_published h.performs hpub

/-- The message is what is left of a notification whose first send failed. -/
def InLife (P : Platform) (conf : Config) (T : Notifiers) (m : KafkaValue) : Prop :=
  ∃ first trs, FirstFailed P conf T first ∧ @Life P conf T first trs [m]

theorem InLife.requeue {m m' : KafkaValue} (h : InLife P conf T m) {tr : PyTrace P}
    {e : Effect P} (hperf : Prog.Performs (RetryEngine.body conf T m) tr e)
    (hm' : (Topic.retry, m') ∈ e.published) : InLife P conf T m' := by
  obtain ⟨first, trs, hfirst, hlife⟩ := h
  cases e with
  | publish topic docs =>
    obtain rfl : Topic.retry = topic := by
      simp only [Effect.published_publish, List.mem_map, Prod.mk.injEq] at hm'
      obtain ⟨j, -, ht, -⟩ := hm'
      exact ht.symm
    have hnext := hlife.retried (RetryEngine.commits_after_requeue hperf)
    have hmem : m' ∈ [] ++ requeued (tr ++ [publishes P .retry docs]) := by
      rw [List.nil_append]
      exact mem_requeued.mpr ⟨publishes P .retry docs, by simp, hm'⟩
    rw [(course hfirst hnext).eq_singleton hmem] at hnext
    exact ⟨first, _, hfirst, hnext⟩
  | _ => cases hm'

/-- Every message on the retry topic waits in a life. -/
def lifeContract (W : Environment P) (conf : Config) (T : Notifiers) (mayCrash : Prop) :
    Contract (system W conf T mayCrash) where
  Valid := fun t m => t = .retry → InLife P conf T m
  A := fun _ _ => True
  Φ := fun i o m tr e =>
    (i.source = .retry → InLife P conf T m) ∧ Prog.Performs (i.body P T o m) tr e
  Q := fun _ _ _ _ => True
  answer_admits := fun _ => trivial
  env_valid := by
    rintro w pubs w' ⟨alarms, rfl, -⟩ p hp ht
    obtain ⟨m, -, rfl⟩ := List.mem_map.mp hp
    cases ht
  handler_performs := fun hvalid _ h => ⟨hvalid, h⟩
  handler_returns := fun _ _ _ => trivial
  publish_valid := by
    rintro i o m tr e ⟨hvalid, h⟩ ⟨topic, m'⟩ hp ht
    have ht : topic = .retry := ht
    subst ht
    cases i with
    | notification => exact ⟨m', [], FirstFailed.of_mem_published h hp, .queued⟩
    | retry => exact (hvalid rfl).requeue h hp
    | periodic self =>
      have hp : (Topic.retry, m') ∈ e.published := hp
      cases PeriodicEngine.performs_body h with
      | silent hs => exact absurd hs (Effect.not_silent_of_mem_published hp)
      | forward _ _ _ _ _ _ => simp [Effect.published] at hp
      | _ => cases hp

/--
In every reachable state, with or without crashes, each message on the retry topic is what is
left of a notification whose first send failed, so `retries_bounded` speaks about it.
-/
theorem inLife_of_mem_retry {mayCrash : Prop} {s : SystemState W conf}
    (h : Reachable (system W conf T mayCrash) s) : ∀ m ∈ s.log .retry, InLife P conf T m :=
  fun m hm => ((lifeContract W conf T mayCrash).inv_reachable h).valid .retry m hm rfl

end

/-! ## A life in the deployment -/

namespace Deployment

theorem firstFailed_onRetry : FirstFailed cpython conf notifiers onRetry :=
  FirstFailed.of_mem_requeued
    (runs_trace (Store.sem 0 (.ok (.bool false)))
      (NotificationEngine.body conf notifiers
        ⟨0, 0, transitionMessage (alarm "OK" "ALARM")⟩) store) (by decide +kernel)

/-- What a retry step does, up to its commit, when the plugin refuses the message again. -/
def retryTrace : PyTrace cpython :=
  ((RetryEngine.body conf notifiers onRetry).trace
    (Store.sem 30 (.ok (.bool false))) store).dropLast

theorem life_retryTrace : Life conf notifiers onRetry [retryTrace] (requeued retryTrace) := by
  have hok : ((RetryEngine.body (P := cpython) conf notifiers onRetry).run
      (Store.sem 30 (.ok (.bool false))) store).1 = .ok () := by decide +kernel
  have hrun := runs_trace (Store.sem 30 (.ok (.bool false)))
    (RetryEngine.body (P := cpython) conf notifiers onRetry) store
  rw [hok] at hrun
  obtain ⟨tr, htr, -⟩ := RetryEngine.runs_body hrun
  have hdrop : retryTrace = tr := by
    rw [retryTrace, htr]
    simp
  rw [htr] at hrun
  rw [hdrop]
  exact Life.queued.retried hrun.performs

end Deployment

/-- After one refused retry, the message that is left carries count 1. -/
theorem retries_bounded_refused : (requeued Deployment.retryTrace).length = 1 ∧
    ∀ m ∈ requeued Deployment.retryTrace, ∃ n : Notification cpython, m = .dumps n.toJson ∧
      n.retryCount = .int (failures [Deployment.retryTrace].flatten).length :=
  ⟨by decide +kernel, (retries_bounded Deployment.firstFailed_onRetry
    Deployment.life_retryTrace).2.1⟩

end MonascaNotification
