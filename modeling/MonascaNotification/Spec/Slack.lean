import MonascaNotification.Infra.Cache
import MonascaNotification.Infra.Except
import MonascaNotification.Model.Slack

/-!
# What `send_notification` of the Slack plugin does

The URL and the query parameters come from the address, or an exception is raised and nothing is
posted. After that nothing is raised any more: `Sends` lists the posts that a call can make, with
the result and the next cache.
-/

namespace MonascaNotification.SlackNotifier

open Infra Prog

variable {P : Platform} {R : Rendering} {U : Urllib} {conf : Conf} {cache : List String}
  {n : Notification P}

/-! ## One post -/

/-- What `_send_message` makes of an answer. -/
def delivered (answer : Except PyExn Response) : Bool :=
  match answer with
  | .error _ => false
  | .ok result =>
    if 200 ≤ result.statusCode ∧ result.statusCode < 300 then
      match checkResponse result with
      | .ok accepted => accepted
      | .error _ => false
    else false

theorem sendMessage_eq (options : RequestOptions) :
    sendMessage options = .perform options fun answer => .ret (delivered answer) := by
  show Prog.perform options _ = _
  congr 1
  funext answer
  cases answer with
  | error x => rfl
  | ok result =>
    dsimp only [ofExcept_ok, bind_ret]
    by_cases hstatus : 200 ≤ result.statusCode ∧ result.statusCode < 300
    · rw [if_neg (not_not_intro hstatus), delivered, if_pos hstatus]
      cases checkResponse result with
      | error x => rfl
      | ok accepted => cases accepted <;> rfl
    · rw [if_pos hstatus, delivered, if_neg hstatus]
      rfl

/-! ## The target -/

/-- Where a notification is posted, and the message. -/
structure Target where
  url : String
  params : QueryParams
  message : Json

/-- What `send_notification` computes before it posts. -/
def target (R : Rendering) (U : Urllib) (conf : Conf) (n : Notification P) :
    Except PyExn Target := do
  let message ← buildMessage R conf n
  let address ← replaceHash n.address
  let query ← U.query address
  let url ← U.withoutQuery address
  return { url, params := U.parseQs query, message }

def Target.options (t : Target) (conf : Conf) (dataFormat : DataFormat) : RequestOptions where
  url := t.url
  verify := conf.verify
  params := t.params
  proxies := conf.proxy
  format := dataFormat
  message := t.message
  timeout := conf.timeout

theorem sendNotification_eq (R : Rendering) (U : Urllib) (conf : Conf) (cache : List String)
    (n : Notification P) : sendNotification R U conf cache n =
      (Prog.ofExcept (target R U conf n)).bind fun t =>
        tryFormats (t.options conf) cache (if t.url ∈ cache then [.data] else [.json, .data]) := by
  rw [sendNotification, target]
  cases buildMessage R conf n with
  | error x => rfl
  | ok message =>
    cases replaceHash n.address with
    | error x => rfl
    | ok address =>
      simp only [ofExcept_ok, bind_eq, bind_ret, ok_bind]
      cases U.query address with
      | error x => rfl
      | ok query =>
        simp only [ofExcept_ok, bind_ret, ok_bind]
        cases U.withoutQuery address with
        | error x => rfl
        | ok url => rfl

/-! ## The posts -/

/-- One turn of the loop over the formats. -/
theorem runs_tryFormats {options : DataFormat → RequestOptions} {dataFormat : DataFormat}
    {rest : List DataFormat} {tr : PostTrace} {out : Except PyExn (Bool × List String)} :
    Runs (tryFormats options cache (dataFormat :: rest)) tr out ↔
      ∃ answer tr', tr = ⟨options dataFormat, answer⟩ :: tr' ∧
        if delivered answer then
          tr' = [] ∧ out = .ok (true, if dataFormat = .data then
            keep maxCacheSize cache (options dataFormat).url else cache)
        else Runs (tryFormats options cache rest) tr' out := by
  rw [tryFormats, sendMessage_eq]
  refine exists_congr fun answer => exists_congr fun tr' => and_congr_right fun _ => ?_
  dsimp only [bind_ret]
  cases delivered answer with
  | false => exact Iff.rfl
  | true =>
    rw [if_pos rfl, if_pos rfl]
    by_cases hdata : dataFormat = .data
    · rw [if_pos hdata, keep]
      by_cases hkeep : (options dataFormat).url ∉ cache ∧ cache.length < maxCacheSize
      · rw [if_pos ⟨hdata, hkeep⟩, if_pos hkeep]
        exact Iff.rfl
      · rw [if_neg fun h => hkeep h.2, if_neg hkeep]
        exact Iff.rfl
    · rw [if_neg hdata, if_neg fun h => hdata h.1]
      exact Iff.rfl

/--
The posts of a call for the target `t`, with its result and the next cache. Only a URL that is
not cached is tried as JSON, and only there can the cache grow.
-/
inductive Sends (conf : Conf) (cache : List String) (t : Target) :
    PostTrace → Bool → List String → Prop where
  | cached {answer : Except PyExn Response} : t.url ∈ cache →
      Sends conf cache t [⟨t.options conf .data, answer⟩] (delivered answer) cache
  | json {answer : Except PyExn Response} : t.url ∉ cache → delivered answer = true →
      Sends conf cache t [⟨t.options conf .json, answer⟩] true cache
  | data {refusal answer : Except PyExn Response} : t.url ∉ cache → delivered refusal = false →
      Sends conf cache t [⟨t.options conf .json, refusal⟩, ⟨t.options conf .data, answer⟩]
        (delivered answer) (if delivered answer then keep maxCacheSize cache t.url else cache)

theorem keep_of_mem {x : String} (h : x ∈ cache) : keep maxCacheSize cache x = cache :=
  if_neg fun hk => hk.1 h

/-- The last turn of the loop, with nothing left to try. -/
theorem runs_tryFormats_data {t : Target} {tr : PostTrace}
    {out : Except PyExn (Bool × List String)} :
    Runs (tryFormats (t.options conf) cache [.data]) tr out ↔
      ∃ answer, tr = [⟨t.options conf .data, answer⟩] ∧
        out = .ok (delivered answer,
          if delivered answer then keep maxCacheSize cache t.url else cache) := by
  rw [runs_tryFormats]
  refine exists_congr fun answer => ?_
  have hend : ∀ tr', (if delivered answer then
      tr' = [] ∧ out = .ok (true, if DataFormat.data = .data then
        keep maxCacheSize cache (t.options conf .data).url else cache)
      else Runs (tryFormats (t.options conf) cache []) tr' out) ↔
        tr' = [] ∧ out = .ok (delivered answer,
          if delivered answer then keep maxCacheSize cache t.url else cache) := by
    intro tr'
    cases delivered answer with
    | true => exact Iff.rfl
    | false => exact Iff.rfl
  refine (exists_congr fun tr' => and_congr_right fun _ => hend tr').trans ?_
  constructor
  · rintro ⟨tr', rfl, rfl, rfl⟩
    exact ⟨rfl, rfl⟩
  · rintro ⟨rfl, rfl⟩
    exact ⟨[], rfl, rfl, rfl⟩

theorem runs_sends {t : Target} {tr : PostTrace} {out : Except PyExn (Bool × List String)} :
    Runs (tryFormats (t.options conf) cache (if t.url ∈ cache then [.data] else [.json, .data]))
        tr out ↔
      ∃ sent next, out = .ok (sent, next) ∧ Sends conf cache t tr sent next := by
  by_cases hcached : t.url ∈ cache
  · rw [if_pos hcached, runs_tryFormats_data, keep_of_mem hcached]
    constructor
    · rintro ⟨answer, rfl, rfl⟩
      exact ⟨_, _, by rw [ite_self], .cached hcached⟩
    · rintro ⟨sent, next, rfl, hsends⟩
      cases hsends with
      | cached => exact ⟨_, rfl, by rw [ite_self]⟩
      | json h => exact absurd hcached h
      | data h => exact absurd hcached h
  · rw [if_neg hcached, runs_tryFormats]
    constructor
    · rintro ⟨answer, tr', rfl, h⟩
      -- the loop stops at the first format that is taken
      cases hjson : delivered answer with
      | true =>
        rw [hjson] at h
        obtain ⟨rfl, rfl⟩ := h
        exact ⟨_, _, rfl, .json hcached hjson⟩
      | false =>
        rw [hjson] at h
        obtain ⟨answer', rfl, rfl⟩ := runs_tryFormats_data.mp h
        exact ⟨_, _, rfl, .data hcached hjson⟩
    · rintro ⟨sent, next, rfl, hsends⟩
      cases hsends with
      | cached h => exact absurd h hcached
      | json _ hjson => exact ⟨_, [], rfl, by rw [if_pos hjson]; exact ⟨rfl, rfl⟩⟩
      | data _ hjson =>
        refine ⟨_, _, rfl, ?_⟩
        rw [hjson]
        exact runs_tryFormats_data.mpr ⟨_, rfl, rfl⟩

/-- **One call.** It raises before anything is posted, or makes one of the lists of posts. -/
theorem runs_sendNotification_iff {tr : PostTrace} {out : Except PyExn (Bool × List String)} :
    Runs (sendNotification R U conf cache n) tr out ↔
      (∃ x, target R U conf n = .error x ∧ tr = [] ∧ out = .error x) ∨
      ∃ t sent next, target R U conf n = .ok t ∧ out = .ok (sent, next) ∧
        Sends conf cache t tr sent next := by
  rw [sendNotification_eq]
  cases target R U conf n with
  | error x =>
    constructor
    · rintro ⟨rfl, rfl⟩
      exact .inl ⟨x, rfl, rfl, rfl⟩
    · rintro (⟨y, hy, rfl, rfl⟩ | ⟨t, _, _, ht, -⟩)
      · cases hy
        exact ⟨rfl, rfl⟩
      · cases ht
  | ok t =>
    rw [ofExcept_ok, bind_ret, runs_sends]
    constructor
    · rintro ⟨sent, next, rfl, hsends⟩
      exact .inr ⟨t, sent, next, rfl, rfl, hsends⟩
    · rintro (⟨y, hy, -⟩ | ⟨t', sent, next, ht, rfl, hsends⟩)
      · cases hy
      · cases ht
        exact ⟨sent, next, rfl, hsends⟩

end MonascaNotification.SlackNotifier
