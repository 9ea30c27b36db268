import Folio.Effect.Host
import Mathlib.Tactic.Lemma

/-!
# Faults and interruptions

A program can be stopped between any two of its effects, and an effect can fail. An effect that
fails changes nothing, except that a part of what should be added to a file may already be there.
`Always` is what holds of a program whatever goes wrong: a property of all hosts on its way, and one
of its end.
-/

namespace Folio

/-- The answer to an effect that fails for some reason. Messages do not fail. -/
def Effect.failure? (cause : IoError) : (e : Effect) → Option e.Answer
  | readFile _ | walk _ | createTemporary _ | createTemporaryDirectory .. | launch ..
  | makeDirectory _ | truncate _ | append .. | rename .. | remove _ | removeTree _ =>
    some (.error cause)
  | isDirectory _ | isPresent _ => some false
  | print _ | report _ | startLogging _ | log .. => none

/-- What can come of an effect on a host, when the effects in `mayFail` can fail. -/
inductive Outcome (mayFail : Effect → Prop) (h : Host) : (e : Effect) → e.Answer → Host → Prop where
  | works (e : Effect) : Outcome mayFail h e (h.step e).1 (h.step e).2
  | fails {e : Effect} {cause : IoError} {r : e.Answer} (fault : mayFail e)
    (answer : e.failure? cause = some r) : Outcome mayFail h e r h
  | cutShort {path : String} {part rest : ByteArray} {cause : IoError} {disk : Disk}
    (fault : mayFail (.append path (part ++ rest)))
    (partly : h.disk.append h.workingDirectory path part = .ok disk) :
    Outcome mayFail h (.append path (part ++ rest)) (.error cause) { h with disk }

/-- A program on a host gets to what is left of it and to a host; it may go on from there or may be
stopped. -/
inductive Reaches (mayFail : Effect → Prop) :
    Program α → Host → Program α → Host → Prop where
  | stop (p : Program α) (h : Host) : Reaches mayFail p h p h
  | step {e : Effect} {next : e.Answer → Program α} {h h' h'' : Host} {r : e.Answer}
    {q : Program α} (outcome : Outcome mayFail h e r h')
    (rest : Reaches mayFail (next r) h' q h'') : Reaches mayFail (.perform e next) h q h''

namespace Program

/-- Whatever goes wrong, `I` holds of each host on the way of a program and `Q` at its end. -/
def Always (mayFail : Effect → Prop) (I : Host → Prop) (Q : α → Host → Prop) :
    Program α → Host → Prop
  | done a, h => I h ∧ Q a h
  | perform e next, h =>
    I h ∧ ∀ r h', Outcome mayFail h e r h' → Always mayFail I Q (next r) h'

end Program

section Rules

open Program

variable {mayFail : Effect → Prop} {I : Host → Prop} {h h' : Host}

lemma Program.Always.here {Q : α → Host → Prop} {p : Program α} (hp : p.Always mayFail I Q h) :
    I h := by
  cases p with
  | done a => exact hp.1
  | perform e next => exact hp.1

lemma Program.Always.mono {J : Host → Prop} {Q R : α → Host → Prop} {p : Program α}
    (hp : p.Always mayFail I Q h) (hI : ∀ h', I h' → J h') (hQ : ∀ a h', Q a h' → R a h') :
    p.Always mayFail J R h := by
  induction p generalizing h with
  | done a => exact ⟨hI h hp.1, hQ a h hp.2⟩
  | perform e next ih => exact ⟨hI h hp.1, fun r h' hr => ih r (hp.2 r h' hr)⟩

/-- What holds at the end, whatever holds on the way. -/
lemma Program.Always.atEnd {Q : α → Host → Prop} {p : Program α} (hp : p.Always mayFail I Q h) :
    p.Always mayFail (fun _ => True) Q h :=
  hp.mono (fun _ _ => trivial) fun _ _ hQ => hQ

lemma Program.Always.bind {Q : α → Host → Prop} {R : β → Host → Prop} {p : Program α}
    {f : α → Program β} (hp : p.Always mayFail I Q h)
    (hf : ∀ a h', I h' → Q a h' → (f a).Always mayFail I R h') :
    (p >>= f).Always mayFail I R h := by
  induction p generalizing h with
  | done a => exact hf a h hp.1 hp.2
  | perform e next ih => exact ⟨hp.1, fun r h' hr => ih r (hp.2 r h' hr)⟩

lemma Program.always_pure {Q : α → Host → Prop} {a : α} (hI : I h) (hQ : Q a h) :
    (pure a : Program α).Always mayFail I Q h := ⟨hI, hQ⟩

lemma Program.always_act_bind {Q : α → Host → Prop} {e : Effect} {f : e.Answer → Program α}
    (hI : I h) (hf : ∀ r h', Outcome mayFail h e r h' → (f r).Always mayFail I Q h') :
    (e.act >>= f).Always mayFail I Q h := ⟨hI, hf⟩

lemma Program.Always.except_bind {ε : Type} {Q : Except ε α → Host → Prop}
    {R : Except ε β → Host → Prop} {x : ExceptT ε Program α} {f : α → ExceptT ε Program β}
    (hx : Program.Always mayFail I Q x.run h)
    (hok : ∀ a h', I h' → Q (.ok a) h' → Program.Always mayFail I R (f a).run h')
    (herror : ∀ e h', Q (.error e) h' → R (.error e) h') :
    Program.Always mayFail I R (x >>= f).run h := by
  refine Program.Always.bind hx ?_
  intro a h' hI ha
  cases a with
  | ok a => exact hok a h' hI ha
  | error e => exact ⟨hI, herror e h' ha⟩

/-- What always holds on the way of a program holds of each host that it gets to, and it always
holds of what is left of the program. -/
theorem Reaches.always {Q : α → Host → Prop} {p q : Program α} (hreach : Reaches mayFail p h q h')
    (hp : p.Always mayFail I Q h) : q.Always mayFail I Q h' := by
  induction hreach with
  | stop p h => exact hp
  | step outcome rest ih => exact ih (hp.2 _ _ outcome)

theorem Reaches.run (mayFail : Effect → Prop) (p : Program α) (h : Host) :
    Reaches mayFail p h (.done (h.run p).1) (h.run p).2 := by
  induction p generalizing h with
  | done a => exact .stop _ _
  | perform e next ih => exact .step (.works e) (ih _ _)

/-- What is left of a program after `n` effects, none of which failed. -/
def Host.runFor (h : Host) : Nat → Program α → Program α × Host
  | 0, p => (p, h)
  | _ + 1, .done a => (.done a, h)
  | n + 1, .perform e next => (h.step e).2.runFor n (next (h.step e).1)

lemma Reaches.runFor (mayFail : Effect → Prop) (n : Nat) (p : Program α) (h : Host) :
    Reaches mayFail p h (h.runFor n p).1 (h.runFor n p).2 := by
  induction n generalizing p h with
  | zero => exact .stop p h
  | succ n ih =>
    cases p with
    | done a => exact .stop _ h
    | perform e next => exact .step (.works e) (ih _ _)

lemma Program.Always.run {Q : α → Host → Prop} {p : Program α} (hp : p.Always mayFail I Q h) :
    Q (h.run p).1 (h.run p).2 :=
  ((Reaches.run mayFail p h).always hp).2

lemma Program.Always.lift {ε : Type} {Q : α → Host → Prop} {R : Except ε α → Host → Prop}
    {p : Program α} (hp : p.Always mayFail I Q h) (hR : ∀ a h', Q a h' → R (.ok a) h') :
    Program.Always mayFail I R (liftM p : ExceptT ε Program α).run h := by
  refine Program.Always.bind hp ?_
  intro a h' hI ha
  exact always_pure hI (hR a h' ha)

lemma Program.always_adapt {ε ε' : Type} {Q : Except ε α → Host → Prop}
    {R : Except ε' α → Host → Prop} {x : ExceptT ε Program α} {f : ε → ε'}
    (hx : Program.Always mayFail I Q x.run h) (hok : ∀ a h', Q (.ok a) h' → R (.ok a) h')
    (herror : ∀ e h', Q (.error e) h' → R (.error (f e)) h') :
    Program.Always mayFail I R (x.adapt f).run h := by
  refine Program.Always.bind hx ?_
  intro r h' hI hr
  cases r with
  | ok a => exact always_pure hI (hok a h' hr)
  | error e => exact always_pure hI (herror e h' hr)

lemma Program.always_elseFail {ε : Type} {Q : Except IoError α → Host → Prop}
    {R : Except ε α → Host → Prop} {p : Program (Except IoError α)} {f : IoError → ε}
    (hp : p.Always mayFail I Q h) (hok : ∀ a h', Q (.ok a) h' → R (.ok a) h')
    (herror : ∀ e h', Q (.error e) h' → R (.error (f e)) h') :
    Program.Always mayFail I R (p.elseFail f).run h := by
  refine Program.Always.bind hp ?_
  intro r h' hI hr
  cases r with
  | ok a => exact always_pure hI (hok a h' hr)
  | error e => exact always_pure hI (herror e h' hr)

lemma Program.always_elseFail_keeps {ε : Type} {J : Host → Prop}
    {p : Program (Except IoError α)} {f : IoError → ε}
    (hp : p.Always mayFail I (fun _ => J) h) :
    Program.Always mayFail I (fun _ => J) (p.elseFail f).run h :=
  always_elseFail hp (fun _ _ hJ => hJ) fun _ _ hJ => hJ

end Rules

section Outcomes

variable {mayFail : Effect → Prop} {h h' : Host}

/-- The disk is changed by `f`, or the change fails and leaves no trace, because there is a fault or
because it cannot be made. -/
def Host.ChangesBy (fault : Prop) (f : Disk → List String → Except IoError Disk) (h : Host)
    (r : Except IoError Unit) (h' : Host) : Prop :=
  (h' = h ∧ ∃ cause, r = .error cause ∧ (fault ∨ f h.disk h.workingDirectory = .error cause)) ∨
    ∃ disk, f h.disk h.workingDirectory = .ok disk ∧ r = .ok () ∧ h' = { h with disk }

lemma Host.changesBy_change (fault : Prop) (h : Host)
    (f : Disk → List String → Except IoError Disk) :
    h.ChangesBy fault f (h.change f).1 (h.change f).2 := by
  unfold Host.change Host.ChangesBy
  rcases f h.disk h.workingDirectory with cause | disk
  · exact .inl ⟨rfl, cause, rfl, .inr rfl⟩
  · exact .inr ⟨disk, rfl, rfl, rfl⟩

lemma Host.changesBy_of_failure {fault : Prop} (hfault : fault) (h : Host)
    (f : Disk → List String → Except IoError Disk) (cause : IoError) :
    h.ChangesBy fault f (.error cause) h :=
  .inl ⟨rfl, cause, rfl, .inl hfault⟩

/-- Without a fault an effect does what it does on the host. -/
lemma Outcome.eq_step {e : Effect} {r : e.Answer} (ho : Outcome mayFail h e r h')
    (hsound : ¬mayFail e) : r = (h.step e).1 ∧ h' = (h.step e).2 := by
  cases ho with
  | works => exact ⟨rfl, rfl⟩
  | fails fault => exact absurd fault hsound
  | cutShort fault => exact absurd fault hsound

lemma Outcome.readFile {path : String} {r : Except IoError ByteArray}
    (ho : Outcome mayFail h (.readFile path) r h') :
    h' = h ∧ (r = h.disk.read h.workingDirectory path ∨
      mayFail (.readFile path) ∧ ∃ cause, r = .error cause) := by
  cases ho with
  | works => exact ⟨rfl, .inl rfl⟩
  | fails fault answer => exact ⟨rfl, .inr ⟨fault, _, (Option.some.inj answer).symm⟩⟩

lemma Outcome.isDirectory {path : String} {r : Bool}
    (ho : Outcome mayFail h (.isDirectory path) r h') : h' = h := by
  cases ho with
  | works => rfl
  | fails fault answer => rfl

lemma Outcome.walk {path : String} {r : Except IoError (List Walked)}
    (ho : Outcome mayFail h (.walk path) r h') : h' = h := by
  cases ho with
  | works => rfl
  | fails fault answer => rfl

lemma Outcome.makeDirectory {path : String} {r : Except IoError Unit}
    (ho : Outcome mayFail h (.makeDirectory path) r h') :
    h.ChangesBy (mayFail (.makeDirectory path)) (·.makeDirectory · path) r h' := by
  cases ho with
  | works => exact h.changesBy_change _ _
  | fails fault answer =>
    cases answer
    exact h.changesBy_of_failure fault _ _

lemma Outcome.createTemporary {dir : String} {r : Except IoError String}
    (ho : Outcome mayFail h (.createTemporary dir) r h') :
    (h' = h ∧ ∃ cause, r = .error cause) ∨
      ∃ path disk, h.disk.createFresh h.workingDirectory dir Host.temporaryStem
        (.file ByteArray.empty false) = .ok (path, disk) ∧ r = .ok path ∧ h' = { h with disk } := by
  cases ho with
  | works =>
    simp only [Host.step, Host.create]
    rcases h.disk.createFresh h.workingDirectory dir Host.temporaryStem
      (.file ByteArray.empty false) with cause | ⟨path, disk⟩
    · exact .inl ⟨rfl, cause, rfl⟩
    · exact .inr ⟨path, disk, rfl, rfl, rfl⟩
  | fails fault answer => exact .inl ⟨rfl, _, (Option.some.inj answer).symm⟩

lemma Outcome.truncate {path : String} {r : Except IoError Unit}
    (ho : Outcome mayFail h (.truncate path) r h') :
    h.ChangesBy (mayFail (.truncate path)) (·.truncate · path) r h' := by
  cases ho with
  | works => exact h.changesBy_change _ _
  | fails fault answer =>
    cases answer
    exact h.changesBy_of_failure fault _ _

lemma Outcome.rename {source target : String} {r : Except IoError Unit}
    (ho : Outcome mayFail h (.rename source target) r h') :
    h.ChangesBy (mayFail (.rename source target)) (·.rename · source target) r h' := by
  cases ho with
  | works => exact h.changesBy_change _ _
  | fails fault answer =>
    cases answer
    exact h.changesBy_of_failure fault _ _

lemma Outcome.remove {path : String} {r : Except IoError Unit}
    (ho : Outcome mayFail h (.remove path) r h') :
    h.ChangesBy (mayFail (.remove path)) (·.remove · path) r h' := by
  cases ho with
  | works => exact h.changesBy_change _ _
  | fails fault answer =>
    cases answer
    exact h.changesBy_of_failure fault _ _

lemma Outcome.removeTree {path : String} {r : Except IoError Unit}
    (ho : Outcome mayFail h (.removeTree path) r h') :
    h.ChangesBy (mayFail (.removeTree path)) (·.removeTree · path) r h' := by
  cases ho with
  | works => exact h.changesBy_change _ _
  | fails fault answer =>
    cases answer
    exact h.changesBy_of_failure fault _ _

/-- Adding to a file may fail when a part is written already. -/
lemma Outcome.append {path : String} {bytes : ByteArray} {r : Except IoError Unit}
    (ho : Outcome mayFail h (.append path bytes) r h') :
    h.ChangesBy (mayFail (.append path bytes)) (·.append · path bytes) r h' ∨
      mayFail (.append path bytes) ∧ (∃ cause, r = .error cause) ∧
        ∃ part disk, h.disk.append h.workingDirectory path part = .ok disk ∧
          h' = { h with disk } := by
  cases ho with
  | works => exact .inl (h.changesBy_change _ _)
  | fails fault answer =>
    cases answer
    exact .inl (h.changesBy_of_failure fault _ _)
  | cutShort fault partly => exact .inr ⟨fault, ⟨_, rfl⟩, _, _, partly, rfl⟩

/-- A command is started and ends, or nothing has changed, because there is a fault or because it
cannot be started. -/
lemma Outcome.launch {command : String} {arguments : List String} {r : Except IoError Finished}
    (ho : Outcome mayFail h (.launch command arguments) r h') :
    (h' = h ∧ (∃ cause, r = .error cause) ∧ (mayFail (.launch command arguments) ∨
      ∀ place, h.command? command = .ok place →
        ∃ cause, h.execute place arguments h.disk = .error cause)) ∨
      ∃ place finished disk, h.command? command = .ok place ∧
        h.execute place arguments h.disk = .ok (finished, disk) ∧ r = .ok finished ∧
        h' = { h with disk, launches := ⟨command, arguments, h.disk⟩ :: h.launches } := by
  cases ho with
  | works =>
    simp only [Host.step, Host.launch]
    rcases hplace : h.command? command with cause | place
    · exact .inl ⟨rfl, ⟨cause, rfl⟩, .inr nofun⟩
    · simp only
      rcases hran : h.execute place arguments h.disk with cause | ⟨finished, disk⟩
      · refine .inl ⟨rfl, ⟨cause, rfl⟩, .inr fun goal hgoal => ⟨cause, ?_⟩⟩
        rw [← Except.ok.inj hgoal, hran]
      · exact .inr ⟨place, finished, disk, rfl, hran, rfl, rfl⟩
  | fails fault answer => exact .inl ⟨rfl, ⟨_, (Option.some.inj answer).symm⟩, .inl fault⟩

/-- A message changes nothing but what was written. -/
lemma Outcome.log {level : LogLevel} {area text : String} {r : Unit}
    (ho : Outcome mayFail h (.log level area text) r h') :
    ∃ reports, h' = { h with reports } := by
  cases ho with
  | works =>
    simp only [Host.step]
    split
    · exact ⟨_, rfl⟩
    · exact ⟨h.reports, rfl⟩
  | fails fault answer => cases answer

end Outcomes

end Folio
