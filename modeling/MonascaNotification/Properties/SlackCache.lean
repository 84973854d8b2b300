import MonascaNotification.Properties.AlarmSchema
import MonascaNotification.Python.Urlparse
import MonascaNotification.Spec.Slack

/-!
# The raw-data cache of the Slack plugin

The plugin posts a message as JSON and, when that is refused, as raw data; a URL that took raw
data is kept, and nothing but raw data is posted to it from then on. The key is the URL without
its query, and Slack's own API has the same URL for all its users: one address that takes only
raw data is enough for every later address of that URL that takes only JSON to fail.

`cache_transparent_iff` says for which sequences of calls the cache cannot be told from an
empty one.
-/

namespace MonascaNotification.SlackNotifier

open Infra Prog

variable {P : Platform} {R : Rendering} {U : Urllib} {conf : Conf} {cache : List String}
  {n : Notification P} {accepts : String → QueryParams → DataFormat → Bool}

/-! ## Endpoints -/

/-- Acceptance is a function of the URL, the query parameters and the format. -/
def Fixed (accepts : String → QueryParams → DataFormat → Bool) (options : RequestOptions)
    (answer : Except PyExn Response) : Prop :=
  delivered answer = accepts options.url options.params options.format

/-! ## One call -/

/-- The result and the next cache. -/
def outcome (accepts : String → QueryParams → DataFormat → Bool) (cache : List String)
    (t : Target) : Bool × List String :=
  if t.url ∈ cache then (accepts t.url t.params .data, cache)
  else if accepts t.url t.params .json then (true, cache)
  else if accepts t.url t.params .data then (true, keep maxCacheSize cache t.url)
  else (false, cache)

/-- What a call does, when the endpoints accept in a fixed way. -/
theorem runs_sendNotification {tr : PostTrace} {out : Except PyExn (Bool × List String)}
    (h : Runs (sendNotification R U conf cache n) tr out)
    (hfixed : Trace.Admits (Fixed accepts) tr) :
    out = (target R U conf n).map (outcome accepts cache) := by
  rcases runs_sendNotification_iff.mp h with
    ⟨x, htarget, -, rfl⟩ | ⟨t, sent, next, htarget, rfl, hsends⟩
  · rw [htarget]
    rfl
  · rw [htarget]
    show _ = Except.ok (outcome accepts cache t)
    cases hsends with
    | @cached answer hcached =>
      have hdata : delivered answer = accepts t.url t.params .data :=
        hfixed _ (List.mem_singleton_self _)
      rw [outcome, if_pos hcached, hdata]
    | @json answer hcached hjson =>
      have haccepts : accepts t.url t.params .json = true :=
        (hfixed _ (List.mem_singleton_self _)).symm.trans hjson
      rw [outcome, if_neg hcached, if_pos haccepts]
    | @data refusal answer hcached hjson =>
      rw [Trace.admits_cons, Trace.admits_cons] at hfixed
      have hrefuses : accepts t.url t.params .json = false := hfixed.1.symm.trans hjson
      have hdata : delivered answer = accepts t.url t.params .data := hfixed.2.1
      rw [outcome, if_neg hcached, hrefuses, if_neg Bool.false_ne_true, ← hdata]
      cases delivered answer <;> rfl

/-! ## The calls of a process -/

/-- The cache after a call. An exception is raised before anything is posted. -/
def nextCache (cache : List String) : Except PyExn (Bool × List String) → List String
  | .ok (_, next) => next
  | .error _ => cache

/--
The calls of `send_notification` in a process, whichever instances they are made on, with the
cache before them, and their results.
-/
inductive Session (R : Rendering) (U : Urllib) (conf : Conf)
    (accepts : String → QueryParams → DataFormat → Bool) :
    List String → List (Notification P) → List (Except PyExn Bool) → Prop where
  | nil {cache : List String} : Session R U conf accepts cache [] []
  | cons {cache : List String} {n : Notification P} {tr : PostTrace}
      {out : Except PyExn (Bool × List String)} {ns : List (Notification P)}
      {results : List (Except PyExn Bool)} :
      Runs (sendNotification R U conf cache n) tr out → Trace.Admits (Fixed accepts) tr →
      Session R U conf accepts (nextCache cache out) ns results →
      Session R U conf accepts cache (n :: ns) (out.map Prod.fst :: results)

/-- A response that is accepted, or not. -/
def reply (accepted : Bool) : Response where
  statusCode := 200
  contentType := some "application/text"
  json := .error .valueError
  text := if accepted then "ok" else "failure"

theorem delivered_reply (accepted : Bool) : delivered (.ok (reply accepted)) = accepted := by
  cases accepted <;> decide +kernel

/-- With fixed endpoints, the results of a session are determined. -/
theorem session_cons {ns : List (Notification P)} {result : Except PyExn Bool}
    {results : List (Except PyExn Bool)} :
    Session R U conf accepts cache (n :: ns) (result :: results) ↔
      result = ((target R U conf n).map (outcome accepts cache)).map Prod.fst ∧
      Session R U conf accepts (nextCache cache ((target R U conf n).map (outcome accepts cache)))
        ns results := by
  constructor
  · intro h
    cases h with
    | cons hrun hfixed hrest =>
      obtain rfl := runs_sendNotification hrun hfixed
      exact ⟨rfl, hrest⟩
  · rintro ⟨rfl, hrest⟩
    obtain ⟨tr, out, hrun, hfixed⟩ := Prog.exists_run (A := Fixed accepts)
      (fun o => .ok (reply (accepts o.url o.params o.format))) (fun o => delivered_reply _)
      (sendNotification R U conf cache n)
    obtain rfl := runs_sendNotification hrun hfixed
    exact .cons hrun hfixed hrest

/-! ## What the cache holds -/

/-- The address takes raw data, and no JSON. -/
def RawOnly (accepts : String → QueryParams → DataFormat → Bool) (t : Target) : Prop :=
  accepts t.url t.params .json = false ∧ accepts t.url t.params .data = true

/-- The address takes JSON, and no raw data. -/
def JsonOnly (accepts : String → QueryParams → DataFormat → Bool) (t : Target) : Prop :=
  accepts t.url t.params .json = true ∧ accepts t.url t.params .data = false

instance (t : Target) : Decidable (RawOnly accepts t) := inferInstanceAs (Decidable (_ ∧ _))

/-- The URL of a notification whose address takes raw data only. -/
def rawUrl? (R : Rendering) (U : Urllib) (conf : Conf)
    (accepts : String → QueryParams → DataFormat → Bool)
    (n : Notification P) : Option String :=
  match target R U conf n with
  | .ok t => if RawOnly accepts t then some t.url else none
  | .error _ => none

/-- After a sequence of calls, the cache holds the first URLs that took raw data only. -/
def cacheAfter (R : Rendering) (U : Urllib) (conf : Conf)
    (accepts : String → QueryParams → DataFormat → Bool)
    (ns : List (Notification P)) : List String :=
  kept maxCacheSize (ns.filterMap (rawUrl? R U conf accepts))

/-- A URL that is cached, or that takes JSON, is not put into the cache. -/
theorem nextCache_cacheAfter (ns : List (Notification P)) (n : Notification P) :
    nextCache (cacheAfter R U conf accepts ns)
        ((target R U conf n).map (outcome accepts (cacheAfter R U conf accepts ns))) =
      cacheAfter R U conf accepts (ns ++ [n]) := by
  have hafter : ∀ url?, rawUrl? R U conf accepts n = url? →
      cacheAfter R U conf accepts (ns ++ [n]) = url?.elim (cacheAfter R U conf accepts ns)
        (keep maxCacheSize (cacheAfter R U conf accepts ns)) := by
    rintro url? rfl
    rw [cacheAfter, List.filterMap_append]
    cases hurl : rawUrl? R U conf accepts n with
    | none => simp [hurl, cacheAfter]
    | some url => simp [hurl, cacheAfter, kept_append_singleton]
  cases htarget : target R U conf n with
  | error x =>
    rw [hafter none (by rw [rawUrl?, htarget])]
    rfl
  | ok t =>
    show (outcome accepts (cacheAfter R U conf accepts ns) t).2 = _
    rw [hafter (if RawOnly accepts t then some t.url else none) (by rw [rawUrl?, htarget]),
      outcome]
    by_cases hcached : t.url ∈ cacheAfter R U conf accepts ns
    · rw [if_pos hcached]
      split
      · exact (keep_of_mem hcached).symm
      · rfl
    · rw [if_neg hcached]
      cases hjson : accepts t.url t.params .json with
      | true =>
        rw [if_pos rfl, if_neg fun h => Bool.false_ne_true (h.1.symm.trans hjson)]
        rfl
      | false =>
        rw [if_neg (by decide)]
        cases hdata : accepts t.url t.params .data with
        | true =>
          rw [if_pos rfl, if_pos ⟨hjson, hdata⟩]
          rfl
        | false =>
          rw [if_neg (by decide), if_neg fun h => Bool.false_ne_true (hdata.symm.trans h.2)]
          rfl

/-! ## When the cache can be told from an empty one -/

/--
After these calls, the notification goes to an address that takes JSON only, and whose URL is
one of the first `MAX_CACHE_SIZE` different URLs that took raw data only.
-/
def Misled (R : Rendering) (U : Urllib) (conf : Conf)
    (accepts : String → QueryParams → DataFormat → Bool)
    (earlier : List (Notification P)) (n : Notification P) : Prop :=
  ∃ t, target R U conf n = .ok t ∧ JsonOnly accepts t ∧
    t.url ∈ ((earlier.filterMap (rawUrl? R U conf accepts)).eraseDups.take maxCacheSize)

/-- One call has its result with the empty cache, unless it is misled. -/
theorem result_eq_iff (ns : List (Notification P)) (n : Notification P) :
    ((target R U conf n).map (outcome accepts (cacheAfter R U conf accepts ns))).map Prod.fst =
        ((target R U conf n).map (outcome accepts [])).map Prod.fst ↔
      ¬ Misled R U conf accepts ns n := by
  cases htarget : target R U conf n with
  | error x =>
    refine iff_of_true rfl ?_
    rintro ⟨t, ht, -⟩
    rw [htarget] at ht
    cases ht
  | ok t =>
    have hmisled : Misled R U conf accepts ns n ↔
        JsonOnly accepts t ∧ t.url ∈ cacheAfter R U conf accepts ns := by
      rw [Misled, htarget, cacheAfter, kept_eq_take]
      simp
    show Except.ok (outcome accepts (cacheAfter R U conf accepts ns) t).1 =
      Except.ok (outcome accepts [] t).1 ↔ _
    rw [hmisled, Except.ok.injEq, outcome, outcome, if_neg (List.not_mem_nil (a := t.url))]
    by_cases hcached : t.url ∈ cacheAfter R U conf accepts ns
    · rw [if_pos hcached, JsonOnly]
      cases accepts t.url t.params .json <;> cases accepts t.url t.params .data <;>
        simp [hcached]
    · rw [if_neg hcached]
      refine iff_of_true ?_ fun h => hcached h.2
      cases accepts t.url t.params .json <;> cases accepts t.url t.params .data <;> rfl

/-- The statement for a session that goes on after the calls `earlier`. -/
theorem session_iff (earlier ns : List (Notification P)) (results : List (Except PyExn Bool))
    (h : Session R U conf accepts (cacheAfter R U conf accepts earlier) ns results) :
    List.Forall₂ (fun n result => Session R U conf accepts [] [n] [result]) ns results ↔
      ∀ before n after, ns = before ++ n :: after →
        ¬ Misled R U conf accepts (earlier ++ before) n := by
  induction ns generalizing earlier results with
  | nil =>
    cases h
    refine iff_of_true .nil fun before n after heq => ?_
    cases before <;> cases heq
  | cons n ns ih =>
    cases results with
    | nil => cases h
    | cons result results =>
      obtain ⟨rfl, hrest⟩ := session_cons.mp h
      rw [nextCache_cacheAfter] at hrest
      rw [List.forall₂_cons, ih _ _ hrest, session_cons]
      rw [and_iff_left Session.nil, result_eq_iff]
      constructor
      · rintro ⟨hn, hns⟩ before m after heq
        cases before with
        | nil =>
          cases heq
          rw [List.append_nil]
          exact hn
        | cons m' before =>
          cases heq
          have hm := hns before m after rfl
          rw [List.append_assoc] at hm
          exact hm
      · intro hall
        refine ⟨by simpa using hall [] n ns rfl, fun before m after heq => ?_⟩
        rw [List.append_assoc]
        exact hall (n :: before) m after (by rw [heq]; rfl)

/--
**When the cache changes nothing.** For every sequence of calls in a process, with endpoints
that accept in a fixed way: every call has the result that it has with an empty cache if and
only if no call is misled by the calls before it.
-/
theorem cache_transparent_iff {ns : List (Notification P)} {results : List (Except PyExn Bool)}
    (h : Session R U conf accepts [] ns results) :
    List.Forall₂ (fun n result => Session R U conf accepts [] [n] [result]) ns results ↔
      ∀ before n after, ns = before ++ n :: after → ¬ Misled R U conf accepts before n :=
  session_iff [] ns results h

/-! ## Two tokens -/

/-- A notification of the alarm of `hostAlarm`, for an address of Slack's API. -/
def notificationTo (address : String) : Notification cpython where
  alarmId := .str "1"
  alarmName := .str "test Alarm"
  alarmTimestamp := 1429023453
  message := .str "I am alarming!"
  state := .str "ALARM"
  severity := .str "LOW"
  link := .str ""
  lifecycleState := .str "OPEN"
  tenantId := .str "0"
  metrics := .arr [.obj [("name", .str "cpu"),
    ("dimensions", .obj [("hostname", .str "foo1"), ("service", .str "bar1")])]]
  id := .str "10"
  type := .str "slack"
  name := .str "slack notification"
  address := .str address
  period := .int 0
  retryCount := .int 0
  notificationTimestamp := .null
  rawAlarm := .obj (hostAlarm (some "CPU over 90 %"))
  derived := by decide +kernel

/-- With token `1` only raw data is accepted, with token `2` only JSON. -/
def byToken (_ : String) (params : QueryParams) (dataFormat : DataFormat) : Bool :=
  match params.lookup "token" with
  | some ["1"] => decide (dataFormat = .data)
  | some ["2"] => decide (dataFormat = .json)
  | _ => false

def defaults : Conf where
  timeout := 5
  insecure := true
  caCerts := none
  proxy := none
  messageTemplate := none

def firstUser : Notification cpython :=
  notificationTo "https://slack.com/api/chat.postMessage?token=1&channel=#ops"

def secondUser : Notification cpython :=
  notificationTo "https://slack.com/api/chat.postMessage?token=2&channel=#dev"

theorem session_users : Session cpythonText cpythonUrls defaults byToken []
    [firstUser, secondUser] [.ok true, .ok false] := by
  refine session_cons.mpr ⟨by decide +kernel, ?_⟩
  have hcache : nextCache [] ((target cpythonText cpythonUrls defaults firstUser).map
      (outcome byToken [])) = ["https://slack.com/api/chat.postMessage"] := by decide +kernel
  rw [hcache]
  exact session_cons.mpr ⟨by decide +kernel, .nil⟩

/-- The sequence of the two users: the second call is misled by the first one. -/
theorem cache_transparent_iff_users :
    List.Forall₂ (fun n result =>
        Session cpythonText cpythonUrls defaults byToken [] [n] [result])
      [firstUser, secondUser] [.ok true, .ok false] ↔
    ∀ before n after, [firstUser, secondUser] = before ++ n :: after →
      ¬ Misled cpythonText cpythonUrls defaults byToken before n :=
  cache_transparent_iff session_users

/-- What the first user's address did makes the second user's notification fail. -/
theorem second_user_fails :
    Session cpythonText cpythonUrls defaults byToken [] [firstUser, secondUser]
      [.ok true, .ok false] ∧
    Session cpythonText cpythonUrls defaults byToken [] [secondUser] [.ok true] ∧
    ¬ List.Forall₂ (fun n result =>
        Session cpythonText cpythonUrls defaults byToken [] [n] [result])
      [firstUser, secondUser] [.ok true, .ok false] := by
  refine ⟨session_users, session_cons.mpr ⟨by decide +kernel, .nil⟩, ?_⟩
  intro h
  rw [List.forall₂_cons, List.forall₂_cons, session_cons, session_cons] at h
  have hsecond : ((target cpythonText cpythonUrls defaults secondUser).map
      (outcome byToken [])).map Prod.fst = .ok true := by decide +kernel
  have hfalse := h.2.1.1
  rw [hsecond] at hfalse
  cases hfalse

end MonascaNotification.SlackNotifier
