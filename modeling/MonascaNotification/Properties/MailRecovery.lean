import MonascaNotification.Model.Email
import MonascaNotification.Properties.AlarmSchema

/-!
# A connection that may be dead

The e-mail plugin keeps its connection from one notification to the next. When the server has
dropped it meanwhile, the plugin connects again and tries once more, and it does so also when
it could not connect: then the second try uses the old connection.

`Ending` lists what can happen to the message of one call. It does not depend on the history: of
the stored connection only matters whether it was opened before the call.
-/

namespace MonascaNotification.EmailNotifier

open Infra Prog

variable {P : Platform} {R : Rendering} {asString : EmailMessage → Except PyExn String}
  {conf : Conf} {date : String} {n : Notification P} {msg : EmailMessage} {w w' : Mailer}
  {tr : MailTrace}

/-! ## What is looked at -/

/-- The connection of a `sendmail`, and what it answered. -/
def delivery : Event MailCall MailCall.Answer → Option (Nat × Except MailExn Unit)
  | ⟨.sendmail smtp _ _ _, answer⟩ => some (smtp, answer)
  | _ => none

/-- The calls of `sendmail`. -/
def sent (tr : MailTrace) : List (Nat × Except MailExn Unit) := tr.filterMap delivery

/-- An event that is no failure to connect or to log in. -/
def Connects : Event MailCall MailCall.Answer → Prop
  | ⟨.connect _ _ _, answer⟩ => ∃ smtp, answer = .ok smtp
  | ⟨.login _ _ _, answer⟩ => answer = .ok ()
  | _ => True

@[simp] theorem sent_append (tr₁ tr₂ : MailTrace) : sent (tr₁ ++ tr₂) = sent tr₁ ++ sent tr₂ :=
  List.filterMap_append

/-! ## One connection -/

theorem runs_authenticate {smtp : Nat} {out : Except MailExn Unit}
    (hrun : Runs (authenticate conf smtp) tr out) (hwalk : Walk answering w tr w') :
    w' = w ∧ sent tr = [] ∧ (out = .ok () ∨ ∃ x, out = .error x ∧ ¬ ∀ ev ∈ tr, Connects ev) := by
  rw [authenticate] at hrun
  split at hrun
  · obtain ⟨answer, tr', rfl, hrun⟩ := hrun
    obtain ⟨rfl, rfl⟩ := runs_ofExcept.mp hrun
    cases hwalk with
    | @cons _ _ _ w₁ _ _ hact hwalk =>
      cases hwalk
      refine ⟨hact, rfl, ?_⟩
      cases out with
      | ok a => exact .inl rfl
      | error x =>
        refine .inr ⟨x, rfl, fun h => ?_⟩
        have hlogin : (Except.error x : Except MailExn Unit) = .ok () :=
          h _ (List.mem_singleton_self _)
        cases hlogin
  · obtain ⟨rfl, rfl⟩ := hrun
    cases hwalk
    exact ⟨rfl, rfl, .inl rfl⟩

/-- A new connection is stored, or the old one stays and there was a failure. -/
theorem runs_smtpConnect {out : Except MailExn Bool} (hrun : Runs (smtpConnect conf) tr out)
    (hwalk : Walk answering w tr w') :
    sent tr = [] ∧
      ((out = .ok true ∧ w' = ⟨some w.opened, w.opened + 1⟩) ∨
        (out = .ok false ∧ w'.smtp = w.smtp ∧ w.opened ≤ w'.opened ∧
          ¬ ∀ ev ∈ tr, Connects ev)) := by
  obtain ⟨y, ⟨answer, tr', rfl, hy⟩, rfl⟩ := runs_tryCatch_ret.mp hrun
  cases hwalk with
  | @cons _ _ _ w₁ _ _ hact hwalk =>
    cases answer with
    | error x =>
      obtain ⟨rfl, rfl⟩ := hy
      cases hwalk
      obtain rfl : w' = w := hact
      refine ⟨rfl, .inr ⟨rfl, rfl, le_rfl, fun h => ?_⟩⟩
      have hconnect : ∃ smtp, (Except.error x : Except MailExn Nat) = .ok smtp :=
        h _ (List.mem_singleton_self _)
      obtain ⟨smtp, hsmtp⟩ := hconnect
      cases hsmtp
    | ok smtp =>
      obtain ⟨hsmtp, rfl⟩ : smtp = w.opened ∧ w₁ = { w with opened := w.opened + 1 } := hact
      dsimp only [ofExcept_ok, bind_ret] at hy
      rcases runs_bind.mp hy with ⟨x, rfl, hlogin⟩ | ⟨tr₁, tr₂, _, rfl, hlogin, hrest⟩
      · obtain ⟨rfl, hsent, hout⟩ := runs_authenticate hlogin hwalk
        refine ⟨hsent, .inr ⟨rfl, rfl, Nat.le_succ _, fun h => ?_⟩⟩
        rcases hout with hok | ⟨_, -, hfail⟩
        · cases hok
        · exact hfail fun ev hev => h ev (List.mem_cons_of_mem _ hev)
      · obtain ⟨w₂, hwalk₁, hwalk₂⟩ := walk_append.mp hwalk
        obtain ⟨rfl, hsent, -⟩ := runs_authenticate hlogin hwalk₁
        obtain ⟨_, _, rfl, rfl, rfl⟩ := hrest
        cases hwalk₂ with
        | @cons _ _ _ w₃ _ _ hact hwalk₂ =>
          cases hwalk₂
          obtain rfl : w' = _ := hact
          refine ⟨?_, .inl ⟨rfl, by rw [hsmtp]⟩⟩
          show sent (tr₁ ++ _) = []
          rw [sent_append, hsent]
          rfl

/-! ## One `sendmail` -/

/-- With a connection stored, the message is handed to it, when it can be written. -/
theorem runs_sendmail {smtp : Nat} {out : Except MailExn Unit} (hw : w.smtp = some smtp)
    (hrun : Runs (sendmail asString conf n msg) tr out) (hwalk : Walk answering w tr w') :
    w' = w ∧
      ((∃ x, asString msg = .error x ∧ sent tr = [] ∧ out = .error (.python x)) ∨
        (∃ text, asString msg = .ok text) ∧ sent tr = [(smtp, out)]) := by
  obtain ⟨answer, tr', rfl, hrun⟩ := hrun
  cases hwalk with
  | @cons _ _ _ w₁ _ _ hact hwalk =>
    obtain ⟨hanswer, rfl⟩ : answer = w.smtp ∧ w₁ = w := hact
    obtain rfl : answer = some smtp := hanswer.trans hw
    dsimp only [bind_ret] at hrun
    cases htext : asString msg with
    | error x =>
      rw [htext] at hrun
      obtain ⟨rfl, rfl⟩ := hrun
      cases hwalk
      exact ⟨rfl, .inl ⟨x, rfl, rfl, rfl⟩⟩
    | ok text =>
      rw [htext] at hrun
      obtain ⟨answer, tr', rfl, hrun⟩ := hrun
      obtain ⟨rfl, rfl⟩ := runs_ofExcept.mp hrun
      cases hwalk with
      | @cons _ _ _ w₂ _ _ hact hwalk =>
        cases hwalk
        exact ⟨hact, .inr ⟨⟨text, rfl⟩, rfl⟩⟩

/-- What a call makes of the answer to its last `sendmail`. -/
def settled : Except MailExn Unit → Except MailExn Bool
  | .ok () => .ok true
  | .error x => if x.isSmtpException then .ok false else .error x

theorem runs_firstTry {smtp : Nat} {out : Except MailExn (Option Bool)} (hw : w.smtp = some smtp)
    (hrun : Runs (firstTry asString conf n msg) tr out) (hwalk : Walk answering w tr w') :
    (∃ x, asString msg = .error x ∧ sent tr = [] ∧ out = .error (.python x)) ∨
      (∃ answer, answer ≠ .error .serverDisconnected ∧ sent tr = [(smtp, answer)] ∧
        out = (settled answer).map some) ∨
      (∃ text, asString msg = .ok text) ∧ sent tr = [(smtp, .error .serverDisconnected)] ∧
        out = .ok none ∧
        ∃ next, w'.smtp = some next ∧ ((∀ ev ∈ tr, Connects ev) → w.opened ≤ next) := by
  rcases runs_tryCatch_map.mp hrun with ⟨_, rfl, hsend⟩ | ⟨tr₁, tr₂, x, rfl, hsend, hcatch⟩
  · rcases (runs_sendmail hw hsend hwalk).2 with ⟨x, -, -, hx⟩ | ⟨-, hsent⟩
    · cases hx
    · exact .inr (.inl ⟨.ok (), by simp, hsent, rfl⟩)
  · obtain ⟨w₁, hwalk₁, hwalk₂⟩ := walk_append.mp hwalk
    obtain ⟨rfl, hsent⟩ := runs_sendmail hw hsend hwalk₁
    rw [sent_append]
    cases x with
    | serverDisconnected =>
      obtain ⟨x, -, -, hx⟩ | ⟨htext, hsent⟩ := hsent
      · cases hx
      obtain ⟨x, rfl, hconnect⟩ | ⟨tr₃, tr₄, b, rfl, hconnect, rfl, rfl⟩ := runs_bind.mp hcatch
      · -- `_smtp_connect` handles everything itself
        obtain ⟨-, ⟨hout, -⟩ | ⟨hout, -⟩⟩ := runs_smtpConnect hconnect hwalk₂
        · cases hout
        · cases hout
      rw [List.append_nil] at hwalk₂ ⊢
      obtain ⟨hnone, hresult⟩ := runs_smtpConnect hconnect hwalk₂
      refine .inr (.inr ⟨htext, by rw [hsent, hnone]; rfl, rfl, ?_⟩)
      obtain ⟨-, rfl⟩ | ⟨-, hkept, -, hfail⟩ := hresult
      · exact ⟨_, rfl, fun _ => le_rfl⟩
      · refine ⟨smtp, hkept.trans hw, fun h => absurd ?_ hfail⟩
        exact fun ev hev => h ev (List.mem_append_right _ hev)
    -- any other exception of the server is the result, and the second try is not made
    | smtpException name =>
      obtain ⟨x, -, -, hx⟩ | ⟨htext, hsent⟩ := hsent
      · cases hx
      obtain ⟨rfl, rfl⟩ := hcatch
      refine .inr (.inl ⟨.error (.smtpException name), by simp, ?_, rfl⟩)
      rw [hsent]
      rfl
    | python y =>
      obtain ⟨rfl, rfl⟩ := hcatch
      obtain ⟨x, hx, hsent, heq⟩ | ⟨htext, hsent⟩ := hsent
      · cases heq
        exact .inl ⟨y, hx, by rw [hsent]; rfl, rfl⟩
      · refine .inr (.inl ⟨.error (.python y), by simp, ?_, rfl⟩)
        rw [hsent]
        rfl

theorem runs_secondTry {smtp : Nat} {out : Except MailExn Bool} (hw : w.smtp = some smtp)
    (htext : ∃ text, asString msg = .ok text)
    (hrun : Runs (secondTry asString conf n msg) tr out) (hwalk : Walk answering w tr w') :
    ∃ answer, sent tr = [(smtp, answer)] ∧ out = settled answer := by
  obtain ⟨text, htext⟩ := htext
  rcases runs_tryCatch_map.mp hrun with ⟨_, rfl, hsend⟩ | ⟨tr₁, tr₂, x, rfl, hsend, hcatch⟩
  · obtain ⟨-, ⟨x, -, -, hx⟩ | ⟨-, hsent⟩⟩ := runs_sendmail hw hsend hwalk
    · cases hx
    · exact ⟨.ok (), hsent, rfl⟩
  · obtain ⟨w₁, hwalk₁, hwalk₂⟩ := walk_append.mp hwalk
    obtain ⟨-, ⟨y, hy, -⟩ | ⟨-, hsent⟩⟩ := runs_sendmail hw hsend hwalk₁
    · rw [htext] at hy
      cases hy
    refine ⟨.error x, ?_⟩
    rw [sent_append, hsent, settled]
    split at hcatch
    · next hsmtp =>
      obtain ⟨rfl, rfl⟩ := hcatch
      rw [if_pos hsmtp]
      exact ⟨rfl, rfl⟩
    · next hpython =>
      obtain ⟨rfl, rfl⟩ := hcatch
      rw [if_neg hpython]
      exact ⟨rfl, rfl⟩

/-! ## One call -/

theorem runs_ready {out : Except MailExn Bool} (hrun : Runs (ready conf) tr out)
    (hwalk : Walk answering w tr w') :
    sent tr = [] ∧
      ((out = .ok true ∧ w.opened ≤ w'.opened ∧ ∃ smtp, w'.smtp = some smtp) ∨
        (out = .ok false ∧ ¬ ∀ ev ∈ tr, Connects ev)) := by
  obtain ⟨answer, tr', rfl, hrun⟩ := hrun
  cases hwalk with
  | @cons _ _ _ w₁ _ _ hact hwalk =>
    obtain ⟨rfl, rfl⟩ : answer = w.smtp ∧ w₁ = w := hact
    dsimp only [bind_ret] at hrun
    split at hrun
    · next smtp hsmtp =>
      obtain ⟨rfl, rfl⟩ := hrun
      cases hwalk
      exact ⟨rfl, .inl ⟨rfl, le_rfl, smtp, hsmtp⟩⟩
    · obtain ⟨hsent, ⟨rfl, rfl⟩ | ⟨rfl, -, -, hfail⟩⟩ := runs_smtpConnect hrun hwalk
      · exact ⟨hsent, .inl ⟨rfl, Nat.le_succ _, _, rfl⟩⟩
      · -- the access to `_smtp` connects to nothing
        exact ⟨hsent, .inr ⟨rfl, fun h => hfail fun ev hev => h ev (List.mem_cons_of_mem _ hev)⟩⟩

/--
What becomes of a message: the calls of `sendmail`, and the outcome. `up` says that no attempt to
connect failed during the call, and `opened` is the number of the first connection that was
opened in it.
-/
inductive Ending (asString : EmailMessage → Except PyExn String) (msg : EmailMessage)
    (opened : Nat) (up : Prop) : List (Nat × Except MailExn Unit) → Except MailExn Bool → Prop where
  | unconnected : ¬ up → Ending asString msg opened up [] (.ok false)
  | unwritten {x : PyExn} : asString msg = .error x →
      Ending asString msg opened up [] (.error (.python x))
  | first {smtp : Nat} {answer : Except MailExn Unit} : answer ≠ .error .serverDisconnected →
      Ending asString msg opened up [(smtp, answer)] (settled answer)
  | second {smtp next : Nat} {answer : Except MailExn Unit} : (up → opened ≤ next) →
      Ending asString msg opened up [(smtp, .error .serverDisconnected), (next, answer)]
        (settled answer)

/-- **One call**, from any state of the notifier. -/
theorem ending_sendNotification {out : Except MailExn Bool}
    (hmsg : message R conf.toEmailConf date n = .ok msg)
    (hrun : Runs (sendNotification R asString conf date n) tr out)
    (hwalk : Walk answering w tr w') :
    Ending asString msg w.opened (∀ ev ∈ tr, Connects ev) (sent tr) out := by
  have hpython : (python (.ok msg) : Mailing EmailMessage) = .ret msg := rfl
  rw [sendNotification, hmsg, hpython, bind_eq, bind_ret] at hrun
  rcases runs_bind.mp hrun with ⟨x, rfl, hready⟩ | ⟨tr₁, rest, b, rfl, hready, hrun⟩
  · obtain ⟨-, ⟨hout, -⟩ | ⟨hout, -⟩⟩ := runs_ready hready hwalk
    · cases hout
    · cases hout
  obtain ⟨w₁, hwalk₁, hwalk⟩ := walk_append.mp hwalk
  obtain ⟨hsent₁, ⟨hb, hopened, smtp, hsmtp⟩ | ⟨hb, hfail⟩⟩ := runs_ready hready hwalk₁
  · cases hb
    rw [if_pos rfl] at hrun
    rw [sent_append, hsent₁, List.nil_append]
    rcases runs_bind.mp hrun with ⟨x, rfl, htry⟩ | ⟨tr₂, tr₃, result, rfl, htry, hrun⟩
    · rcases runs_firstTry hsmtp htry hwalk with
        ⟨y, hy, hsent, hout⟩ | ⟨answer, hanswer, hsent, hout⟩ | ⟨-, -, hout, -⟩
      · cases hout
        rw [hsent]
        exact .unwritten hy
      · rw [hsent, ← map_eq_error.mp hout.symm]
        exact .first hanswer
      · cases hout
    obtain ⟨w₂, hwalk₂, hwalk₃⟩ := walk_append.mp hwalk
    rw [sent_append]
    rcases runs_firstTry hsmtp htry hwalk₂ with
      ⟨y, -, -, hout⟩ | ⟨answer, hanswer, hsent, hout⟩ | ⟨htext, hsent, hout, next, hnext, hnew⟩
    · cases hout
    · -- the first try has the result
      obtain ⟨b, hsettled, rfl⟩ := map_eq_ok.mp hout.symm
      obtain ⟨rfl, rfl⟩ := hrun
      rw [List.append_nil, hsent, ← hsettled]
      exact .first hanswer
    · cases hout
      obtain ⟨answer, hsent₃, rfl⟩ := runs_secondTry hnext htext hrun hwalk₃
      rw [hsent, hsent₃]
      exact .second fun hup => le_trans hopened (hnew fun ev hev => hup ev (by simp [hev]))
  · cases hb
    obtain ⟨rfl, rfl⟩ := hrun
    rw [List.append_nil, hsent₁]
    exact .unconnected hfail

/-! ## The stored connection -/

/-- The stored connection is one that was opened. -/
def Mailer.Sound (w : Mailer) : Prop := ∀ smtp, w.smtp = some smtp → smtp < w.opened

/-- A call that neither opens nor stores anything. -/
theorem sound_perform {call : MailCall} {α : Type} {k : call.Answer → Mailing α}
    (hcall : ∀ w r w', answering w call r w' → w' = w)
    (hk : ∀ r, Triple answering Mailer.Sound (k r) fun _ => Mailer.Sound) :
    Triple answering Mailer.Sound (.perform call k) fun _ => Mailer.Sound := by
  refine triple_perform fun r => (hk r).mono ?_ fun _ _ hw => hw
  rintro w' ⟨w, hw, hact⟩
  rw [hcall w r w' hact]
  exact hw

theorem sound_smtpConnect :
    Triple answering Mailer.Sound (smtpConnect conf) fun _ => Mailer.Sound := by
  intro w tr out w' hw hrun hwalk
  obtain ⟨-, ⟨-, rfl⟩ | ⟨-, hkept, hopened, -⟩⟩ := runs_smtpConnect hrun hwalk
  · intro smtp hsmtp
    cases hsmtp
    exact Nat.lt_succ_self _
  · intro smtp hsmtp
    rw [hkept] at hsmtp
    exact lt_of_lt_of_le (hw smtp hsmtp) hopened

theorem sound_ret {α : Type} (a : α) :
    Triple answering Mailer.Sound (.ret a : Mailing α) fun _ => Mailer.Sound :=
  triple_ret fun _ hw => hw

theorem sound_ofExcept {α : Type} (y : Except MailExn α) :
    Triple answering Mailer.Sound (.ofExcept y : Mailing α) fun _ => Mailer.Sound :=
  triple_ofExcept fun _ hw => hw

theorem sound_ready : Triple answering Mailer.Sound (ready conf) fun _ => Mailer.Sound := by
  refine sound_perform (fun w r w' h => h.2) fun answer => ?_
  cases answer with
  | some smtp => exact sound_ret true
  | none => exact sound_smtpConnect

theorem sound_sendmail :
    Triple answering Mailer.Sound (sendmail asString conf n msg) fun _ => Mailer.Sound := by
  refine sound_perform (fun w r w' h => h.2) fun answer => ?_
  cases answer with
  | none => exact triple_raise fun _ hw => hw
  | some smtp =>
    refine (sound_ofExcept _).bind (fun text => ?_) fun _ _ hw => hw
    exact sound_perform (fun w r w' h => h) fun answer => sound_ofExcept answer

theorem sound_firstTry :
    Triple answering Mailer.Sound (firstTry asString conf n msg) fun _ => Mailer.Sound := by
  refine Triple.tryCatch (sound_sendmail.bind (fun _ => sound_ret _) fun _ _ hw => hw)
    (fun _ _ hw => hw) fun x => ?_
  cases x with
  | serverDisconnected => exact sound_smtpConnect.bind (fun _ => sound_ret _) fun _ _ hw => hw
  | smtpException name => exact sound_ret _
  | python y => exact triple_raise fun _ hw => hw

theorem sound_secondTry :
    Triple answering Mailer.Sound (secondTry asString conf n msg) fun _ => Mailer.Sound := by
  refine Triple.tryCatch (sound_sendmail.bind (fun _ => sound_ret _) fun _ _ hw => hw)
    (fun _ _ hw => hw) fun x => ?_
  split
  · exact sound_ret _
  · exact triple_raise fun _ hw => hw

theorem sound_sendNotification : Triple answering Mailer.Sound
    (sendNotification R asString conf date n) fun _ => Mailer.Sound := by
  refine (sound_ofExcept _).bind (fun msg => ?_) fun _ _ hw => hw
  refine sound_ready.bind (fun b => ?_) fun _ _ hw => hw
  split
  · refine sound_firstTry.bind (fun result => ?_) fun _ _ hw => hw
    cases result with
    | some b => exact sound_ret b
    | none => exact sound_secondTry
  · exact sound_ret false

theorem Reached.sound (h : Reached (P := P) R asString conf w) : w.Sound := by
  induction h with
  | init => exact fun smtp hsmtp => nomatch hsmtp
  | config _ hrun hwalk ih =>
    exact sound_smtpConnect.bind (fun _ => sound_ret ()) (fun _ _ hw => hw) _ _ _ _ ih hrun hwalk
  | send _ hrun hwalk ih => exact sound_sendNotification _ _ _ _ ih hrun hwalk

/-! ## After any history -/

/-- What the next call does with its message. -/
structure Recovers (asString : EmailMessage → Except PyExn String) (msg : EmailMessage)
    (w : Mailer) (tr : MailTrace) (out : Except MailExn Bool) : Prop where
  /-- A stored connection is one from before the call. -/
  leftOver : ∀ smtp, w.smtp = some smtp → smtp < w.opened
  /--
  The server takes connections, and messages on the new ones; one from before delivers or is
  found to be disconnected.
  -/
  recovers : (∃ text, asString msg = .ok text) → (∀ ev ∈ tr, Connects ev) →
    (∀ s ∈ sent tr, w.opened ≤ s.1 → s.2 = .ok ()) →
    (∀ s ∈ sent tr, s.1 < w.opened → s.2 = .ok () ∨ s.2 = .error .serverDisconnected) →
    out = .ok true
  atMostTwo : (sent tr).length ≤ 2
  /-- Only the last try does not end with a lost connection. -/
  afterDisconnect : ∀ s ∈ (sent tr).dropLast, s.2 = .error .serverDisconnected
  returnsTrue : out = .ok true ↔ ∃ s, (sent tr).getLast? = some s ∧ s.2 = .ok ()
  deliversOnce : (sent tr).countP (fun s => decide (s.2 = .ok ())) ≤ 1
  raisesNothing : (∃ text, asString msg = .ok text) →
    (∀ s ∈ sent tr, ∀ x, s.2 = .error x → x.isSmtpException) → ∃ b, out = .ok b

theorem settled_eq_true {answer : Except MailExn Unit} :
    settled answer = .ok true ↔ answer = .ok () := by
  cases answer with
  | ok a => exact iff_of_true rfl rfl
  | error x =>
    refine iff_of_false ?_ (by simp)
    rw [settled]
    split
    · simp
    · simp

theorem exists_settled {answer : Except MailExn Unit}
    (h : ∀ x, answer = .error x → x.isSmtpException) : ∃ b, settled answer = .ok b := by
  cases answer with
  | ok a => exact ⟨true, rfl⟩
  | error x =>
    rw [settled, if_pos (h x rfl)]
    exact ⟨false, rfl⟩

theorem Ending.recovers {out : Except MailExn Bool} (hw : w.Sound)
    (h : Ending asString msg w.opened (∀ ev ∈ tr, Connects ev) (sent tr) out) :
    Recovers asString msg w tr out := by
  generalize hsent : sent tr = calls at h
  cases h with
  | unconnected hfail =>
    exact {
      leftOver := hw
      recovers := fun _ hup => absurd hup hfail
      atMostTwo := by rw [hsent]; exact Nat.zero_le 2
      afterDisconnect := by simp [hsent]
      returnsTrue := by simp [hsent]
      deliversOnce := by simp [hsent]
      raisesNothing := fun _ _ => ⟨false, rfl⟩ }
  | unwritten htext =>
    have hnot : ¬ ∃ text, asString msg = .ok text := by simp [htext]
    exact {
      leftOver := hw
      recovers := fun hwritten => absurd hwritten hnot
      atMostTwo := by rw [hsent]; exact Nat.zero_le 2
      afterDisconnect := by simp [hsent]
      returnsTrue := by simp [hsent]
      deliversOnce := by simp [hsent]
      raisesNothing := fun hwritten => absurd hwritten hnot }
  | @first smtp answer hanswer =>
    exact {
      leftOver := hw
      recovers := by
        intro _ _ hnew hold
        rw [hsent] at hnew hold
        refine settled_eq_true.mpr ?_
        by_cases hopened : w.opened ≤ smtp
        · exact hnew _ (List.mem_singleton_self _) hopened
        · rcases hold _ (List.mem_singleton_self _) (by omega) with hok | hlost
          · exact hok
          · exact absurd hlost hanswer
      atMostTwo := by rw [hsent]; exact Nat.le_succ 1
      afterDisconnect := by simp [hsent]
      returnsTrue := by simp [hsent, settled_eq_true]
      deliversOnce := by rw [hsent]; exact List.countP_le_length
      raisesNothing := by
        intro _ hall
        rw [hsent] at hall
        exact exists_settled (hall _ (List.mem_singleton_self _)) }
  -- when nothing failed to connect, the second try is on a connection of this call
  | @second smtp next answer hnext =>
    exact {
      leftOver := hw
      recovers := by
        intro _ hup hnew _
        rw [hsent] at hnew
        exact settled_eq_true.mpr (hnew (next, answer) (by simp) (hnext hup))
      atMostTwo := by rw [hsent]; exact le_refl 2
      afterDisconnect := by simp [hsent]
      returnsTrue := by simp [hsent, settled_eq_true]
      deliversOnce := by
        rw [hsent, List.countP_cons_of_neg (by simp)]
        exact List.countP_le_length
      raisesNothing := by
        intro _ hall
        rw [hsent] at hall
        exact exists_settled (hall (next, answer) (by simp)) }

/--
**Recovery.** After every history of a notifier, with any outcomes of connecting and of sending,
and for every next notification whose message can be built.
-/
theorem recovers_sendNotification {out : Except MailExn Bool}
    (h : Reached (P := P) R asString conf w)
    (hmsg : message R conf.toEmailConf date n = .ok msg)
    (hrun : Runs (sendNotification R asString conf date n) tr out)
    (hwalk : Walk answering w tr w') : Recovers asString msg w tr out :=
  (ending_sendNotification hmsg hrun hwalk).recovers h.sound

/-! ## A server that was restarted -/

/-- The server has lost its first connection, and takes everything on the next one. -/
def restarted : (call : MailCall) → Mailer → call.Answer × Mailer
  | .smtp, w => (w.smtp, w)
  | .setSmtp smtp, w => ((), { w with smtp := some smtp })
  | .connect _ _ _, w =>
    ((.ok w.opened : Except MailExn Nat), { w with opened := w.opened + 1 })
  | .login _ _ _, w => ((.ok () : Except MailExn Unit), w)
  | .sendmail smtp _ _ _, w =>
    ((if smtp = 0 then .error .serverDisconnected else .ok () : Except MailExn Unit), w)

theorem answering_restarted (w : Mailer) (call : MailCall) :
    answering w call (restarted call w).1 (restarted call w).2 := by
  cases call with
  | smtp => exact ⟨rfl, rfl⟩
  | setSmtp smtp => exact rfl
  | connect server port timeout => exact ⟨rfl, rfl⟩
  | login smtp user password => exact rfl
  | sendmail smtp fromAddr toAddr text => exact rfl

def mailServer : Conf where
  fromAddr := some "hpcs.mon@hp.com"
  grafanaUrl := none
  server := some "my.smtp.server"
  port := 25
  timeout := 60
  user := none
  password := none

/-- The next notification of a notifier that has opened one connection. -/
def afterRestart : Mailing Bool :=
  sendNotification cpythonText (fun m => .ok m.text) mailServer "Tue, 14 Apr 2015 14:57:33 +0000"
    (mailAbout [hostMetric "foo1" none])

/-- The notifier has connected, the server is restarted, and the message is delivered anyway. -/
theorem recovers_restarted : ∃ msg tr,
    Recovers (fun m => .ok m.text) msg ⟨some 0, 1⟩ tr (.ok true) ∧
    sent tr = [(0, .error .serverDisconnected), (1, .ok ())] := by
  have hbuilt : ∃ msg, message cpythonText mailServer.toEmailConf
      "Tue, 14 Apr 2015 14:57:33 +0000" (mailAbout [hostMetric "foo1" none]) = .ok msg :=
    (exists_message_iff rfl (by simp [hasHosts_hostMetric]) rfl).mpr
      ⟨List.cons_ne_nil _ [], ⟨"Tue Apr 14 14:57:33 2015", by decide +kernel⟩,
        mailable_mailAbout (by decide : IsAscii "foo1") (by simp) (by decide +kernel)⟩
  obtain ⟨msg, hmsg⟩ := hbuilt
  have hconfig : Reached (P := cpython) cpythonText (fun m => .ok m.text) mailServer ⟨some 0, 1⟩ :=
    .config .init (runs_trace restarted (config mailServer) ⟨none, 0⟩)
      (walk_trace answering_restarted (config mailServer) ⟨none, 0⟩)
  have hout : (afterRestart.run restarted ⟨some 0, 1⟩).1 = .ok true := by
    unfold afterRestart sendNotification
    rw [hmsg]
    rfl
  have hsent : sent (afterRestart.trace restarted ⟨some 0, 1⟩) =
      [(0, .error .serverDisconnected), (1, .ok ())] := by
    unfold afterRestart sendNotification
    rw [hmsg]
    rfl
  have hrun := runs_trace restarted afterRestart ⟨some 0, 1⟩
  rw [hout] at hrun
  have hrecovers := recovers_sendNotification hconfig hmsg hrun
    (walk_trace answering_restarted afterRestart ⟨some 0, 1⟩)
  exact ⟨msg, afterRestart.trace restarted ⟨some 0, 1⟩, hrecovers, hsent⟩

end MonascaNotification.EmailNotifier
