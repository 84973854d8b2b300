import MonascaNotification.Properties.SlackCache

/-!
# The history behind the raw-data cache

Nothing is assumed of the endpoints here: a post gets any response, or raises. `History` is what a
process has done from the empty cache on, with calls on any instances and any options. The cache
is then always a list that only grew (`Grown`), and each of its URLs goes back to a call that had
to fall back to raw data (`Call.FellBack`).
-/

namespace MonascaNotification.SlackNotifier

open Infra Prog

variable {P : Platform} {R : Rendering} {U : Urllib}

/-! ## Calls -/

/-- A call of `send_notification`: what it was made with, its posts, and how it ended. -/
structure Call (P : Platform) where
  conf : Conf
  notification : Notification P
  before : List String
  posts : PostTrace
  result : Except PyExn Bool
  after : List String

/-- The calls of a process in their order, from the empty cache, with the cache after them. -/
inductive History (R : Rendering) (U : Urllib) : List (Call P) → List String → Prop where
  | nil : History R U [] []
  | snoc {calls : List (Call P)} {cache : List String} {conf : Conf} {n : Notification P}
      {tr : PostTrace} {out : Except PyExn (Bool × List String)} :
      History R U calls cache → Runs (sendNotification R U conf cache n) tr out →
      History R U
        (calls ++ [⟨conf, n, cache, tr, out.map Prod.fst, nextCache cache out⟩])
        (nextCache cache out)

/-- The call posted JSON to the URL, which failed, and then raw data, which was taken. -/
def Call.FellBack (c : Call P) (url : String) : Prop :=
  ∃ json refusal data answer, c.posts = [⟨json, refusal⟩, ⟨data, answer⟩] ∧
    (json.url = url ∧ json.format = .json ∧ delivered refusal = false) ∧
    data.url = url ∧ data.format = .data ∧ delivered answer = true

/-- Which posts a call makes, and what it returns. -/
structure Call.Orderly (R : Rendering) (U : Urllib) (c : Call P) : Prop where
  atMostTwo : c.posts.length ≤ 2
  /-- Only the last post can be delivered. -/
  noneAfterSuccess : ∀ post ∈ c.posts.dropLast, delivered post.2 = false
  cached : ∀ t, target R U c.conf c.notification = .ok t → t.url ∈ c.before →
    ∃ post, c.posts = [post] ∧ post.1.url = t.url ∧ post.1.format = .data
  returnsTrue : c.result = .ok true ↔ ∃ post, c.posts.getLast? = some post ∧ delivered post.2 = true

/-! ## One call -/

section

variable {conf : Conf} {cache : List String} {n : Notification P} {tr : PostTrace}
  {out : Except PyExn (Bool × List String)}

/-- The call of one step of a history. -/
abbrev made (conf : Conf) (n : Notification P) (cache : List String) (tr : PostTrace)
    (out : Except PyExn (Bool × List String)) : Call P :=
  ⟨conf, n, cache, tr, out.map Prod.fst, nextCache cache out⟩

/-- The cache stays as it is, or a URL is kept after it was only taken as raw data. -/
theorem nextCache_cases (h : Runs (sendNotification R U conf cache n) tr out) :
    nextCache cache out = cache ∨
      ∃ url, nextCache cache out = keep maxCacheSize cache url ∧
        (made conf n cache tr out).FellBack url := by
  rcases runs_sendNotification_iff.mp h with ⟨x, -, -, rfl⟩ | ⟨t, sent, next, -, rfl, hsends⟩
  · exact .inl rfl
  · cases hsends with
    | cached => exact .inl rfl
    | json => exact .inl rfl
    | @data refusal answer _ hrefusal =>
      cases hdata : delivered answer with
      | false => exact .inl rfl
      | true =>
        exact .inr ⟨t.url, rfl, _, refusal, _, answer, rfl, ⟨rfl, rfl, hrefusal⟩, rfl, rfl, hdata⟩

theorem prefix_nextCache (h : Runs (sendNotification R U conf cache n) tr out) :
    cache <+: nextCache cache out := by
  rcases nextCache_cases h with hsame | ⟨url, hkeep, -⟩
  · rw [hsame]
  · rw [hkeep]
    exact prefix_keep cache url

theorem returnsTrue_iff {posts : PostTrace} {options : RequestOptions}
    {answer : Except PyExn Response} (h : posts.getLast? = some ⟨options, answer⟩) :
    (Except.ok (delivered answer) : Except PyExn Bool) = .ok true ↔
      ∃ post, posts.getLast? = some post ∧ delivered post.2 = true := by
  rw [Except.ok.injEq]
  constructor
  · exact fun htrue => ⟨_, h, htrue⟩
  · rintro ⟨post, hlast, htrue⟩
    rw [h] at hlast
    cases hlast
    exact htrue

theorem orderly_call (h : Runs (sendNotification R U conf cache n) tr out) :
    (made conf n cache tr out).Orderly R U := by
  rcases runs_sendNotification_iff.mp h with
    ⟨x, htarget, rfl, rfl⟩ | ⟨t, sent, next, htarget, rfl, hsends⟩
  · exact {
      atMostTwo := Nat.zero_le 2
      noneAfterSuccess := fun post hpost => absurd hpost List.not_mem_nil
      cached := fun t ht => absurd (htarget.symm.trans ht) (by simp)
      returnsTrue := by simp [Except.map] }
  · have hsame : ∀ t', target R U conf n = .ok t' → t' = t := by
      intro t' ht'
      rw [htarget] at ht'
      exact (Except.ok.inj ht').symm
    cases hsends with
    | cached hcached =>
      exact {
        atMostTwo := Nat.le_succ 1
        noneAfterSuccess := fun post hpost => absurd hpost List.not_mem_nil
        cached := fun t' ht' _ => ⟨_, rfl, by rw [hsame t' ht']; rfl, rfl⟩
        returnsTrue := returnsTrue_iff rfl }
    | @json answer hcached hjson =>
      exact {
        atMostTwo := Nat.le_succ 1
        noneAfterSuccess := fun post hpost => absurd hpost List.not_mem_nil
        cached := fun t' ht' hmem => absurd (hsame t' ht' ▸ hmem) hcached
        returnsTrue := by
          refine Iff.trans ?_ (returnsTrue_iff rfl)
          rw [hjson]
          exact Iff.rfl }
    | @data refusal answer hcached hjson =>
      have hlast : List.getLast? ([⟨t.options conf .json, refusal⟩,
          ⟨t.options conf .data, answer⟩] : PostTrace) = some ⟨t.options conf .data, answer⟩ := rfl
      exact {
        atMostTwo := le_refl 2
        noneAfterSuccess := fun post hpost => by rw [List.mem_singleton.mp hpost]; exact hjson
        cached := fun t' ht' hmem => absurd (hsame t' ht' ▸ hmem) hcached
        returnsTrue := returnsTrue_iff List.getLast?_cons_cons }

end

/-! ## Every history -/

/-- **The cache and its history.** -/
structure Recorded (R : Rendering) (U : Urllib) (calls : List (Call P)) (cache : List String) :
    Prop where
  nodup : cache.Nodup
  bounded : cache.length ≤ maxCacheSize
  /-- The cache before a call is a prefix of the one after it, and all of the one at the end. -/
  grown : ∀ c ∈ calls, c.before <+: c.after ∧ c.after <+: cache
  /-- The cache after a call is a prefix of the cache at every later call. -/
  chain : calls.Pairwise fun earlier later => earlier.after <+: later.before
  origin : ∀ url ∈ cache, ∃ c ∈ calls, c.FellBack url
  orderly : ∀ c ∈ calls, c.Orderly R U

/--
Every sequence of calls, on any instances, with any answers to their posts, from the empty cache.
It is a statement about every cache there was, since the calls up to any point are a history too.
-/
theorem recorded_history {calls : List (Call P)} {cache : List String}
    (h : History R U calls cache) : Recorded R U calls cache := by
  induction h with
  | nil =>
    exact {
      nodup := List.nodup_nil
      bounded := Nat.zero_le maxCacheSize
      grown := fun c hc => absurd hc List.not_mem_nil
      chain := .nil
      origin := fun url hurl => absurd hurl List.not_mem_nil
      orderly := fun c hc => absurd hc List.not_mem_nil }
  | @snoc calls cache conf n tr out _ hrun ih =>
    have hkept := prefix_nextCache hrun
    refine { nodup := ?_, bounded := ?_, grown := ?_, chain := ?_, origin := ?_, orderly := ?_ }
    · rcases nextCache_cases hrun with hsame | ⟨url, hkeep, -⟩
      · rw [hsame]
        exact ih.nodup
      · rw [hkeep]
        exact nodup_keep ih.nodup url
    · rcases nextCache_cases hrun with hsame | ⟨url, hkeep, -⟩
      · rw [hsame]
        exact ih.bounded
      · rw [hkeep]
        exact length_keep_le ih.bounded url
    · -- the caches of earlier calls are prefixes of this one, which only grows
      intro c hc
      rcases List.mem_append.mp hc with hc | hc
      · exact ⟨(ih.grown c hc).1, (ih.grown c hc).2.trans hkept⟩
      · rw [List.mem_singleton.mp hc]
        exact ⟨hkept, List.prefix_refl _⟩
    · refine List.pairwise_append.mpr ⟨ih.chain, List.pairwise_singleton _ _, ?_⟩
      intro c hc c' hc'
      rw [List.mem_singleton.mp hc']
      exact (ih.grown c hc).2
    · -- an entry is an old one, or the URL that this call has just fallen back for
      intro url hurl
      rcases nextCache_cases hrun with hsame | ⟨url', hkeep, hfell⟩
      · rw [hsame] at hurl
        obtain ⟨c, hc, hfell⟩ := ih.origin url hurl
        exact ⟨c, List.mem_append_left _ hc, hfell⟩
      · rw [hkeep] at hurl
        rcases mem_keep hurl with hold | rfl
        · obtain ⟨c, hc, hfell⟩ := ih.origin url hold
          exact ⟨c, List.mem_append_left _ hc, hfell⟩
        · exact ⟨_, List.mem_append_right _ (List.mem_singleton_self _), hfell⟩
    · intro c hc
      rcases List.mem_append.mp hc with hc | hc
      · exact ih.orderly c hc
      · rw [List.mem_singleton.mp hc]
        exact orderly_call hrun

theorem History.sends {calls : List (Call P)} {conf : Conf} {cache next : List String}
    {n : Notification P} {t : Target} {tr : PostTrace} {sent : Bool} (h : History R U calls cache)
    (htarget : target R U conf n = .ok t) (hsends : Sends conf cache t tr sent next) :
    History R U (calls ++ [made conf n cache tr (.ok (sent, next))]) next :=
  h.snoc (runs_sendNotification_iff.mpr (.inr ⟨t, sent, next, htarget, rfl, hsends⟩))

/-- The first user's address takes raw data only, and the post for the second one raises. -/
theorem history_users : ∃ calls : List (Call cpython), calls.length = 2 ∧
    History cpythonText cpythonUrls calls ["https://slack.com/api/chat.postMessage"] := by
  have hfirst : (target cpythonText cpythonUrls defaults firstUser).map Target.url =
      .ok "https://slack.com/api/chat.postMessage" := by decide +kernel
  have hsecond : (target cpythonText cpythonUrls defaults secondUser).map Target.url =
      .ok "https://slack.com/api/chat.postMessage" := by decide +kernel
  obtain ⟨t₁, ht₁, hurl₁⟩ := map_eq_ok.mp hfirst
  obtain ⟨t₂, ht₂, hurl₂⟩ := map_eq_ok.mp hsecond
  have hfellBack : Sends defaults [] t₁
      [⟨t₁.options defaults .json, .ok (reply false)⟩,
        ⟨t₁.options defaults .data, .ok (reply true)⟩] (delivered (.ok (reply true)))
      (if delivered (.ok (reply true)) then keep maxCacheSize [] t₁.url else []) :=
    .data List.not_mem_nil (delivered_reply false)
  rw [delivered_reply true, if_pos rfl, hurl₁] at hfellBack
  have hcached : Sends defaults ["https://slack.com/api/chat.postMessage"] t₂
      [⟨t₂.options defaults .data, .error .osError⟩] (delivered (.error .osError))
      ["https://slack.com/api/chat.postMessage"] :=
    .cached (hurl₂ ▸ List.mem_singleton_self t₂.url)
  exact ⟨_, rfl, (History.nil.sends ht₁ hfellBack).sends ht₂ hcached⟩

/-- What holds of the calls of the two users. -/
theorem recorded_history_users : ∃ calls : List (Call cpython), calls.length = 2 ∧
    Recorded cpythonText cpythonUrls calls ["https://slack.com/api/chat.postMessage"] := by
  obtain ⟨calls, hlength, h⟩ := history_users
  exact ⟨calls, hlength, recorded_history h⟩

end MonascaNotification.SlackNotifier
