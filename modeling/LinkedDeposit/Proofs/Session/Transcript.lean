import LinkedDeposit.Event
import LinkedDeposit.Session.Call

/-!
# Transcripts of a session

A session may do anything: here it is any `Session (StateM σ)`, so its answers may depend on
everything that it was asked before. A *transcript* lists the calls made to a session together with
its answers, and the events announced in between. `Session.noted` writes the transcript of any
session.

`Notes` is a program logic for programs that use a session. `Notes s notify noted plain P` says
three things of every run: the noted program does what the plain one does, so noting changes nothing
(`plain`); what it adds to the transcript comes about by the session's own answers (`Plays`); and
the addition and the result satisfy `P`.

Results:
* `Notes.bind`: a sequence adds what its parts add. It is the only rule about control; a failure
  ends the sequence.
* `Notes.deposit`, `Notes.fetch`, `Notes.patch`, `Notes.announceThen`: one call or event, one line.
* `plays_append`: a transcript is played part by part.
-/

namespace LinkedDeposit

/-- A line of a transcript. -/
inductive Line where
  /-- A call with what it came to. -/
  | call (c : SessionCall) (answer : Except DepositError SessionAnswer)
  | event (e : Event)

/-- What a session was asked and answered, and what was announced, in order. -/
abbrev Transcript := List Line

namespace Transcript

/-- The calls with their answers. -/
def calls (t : Transcript) : List (SessionCall × Except DepositError SessionAnswer) :=
  t.filterMap fun
    | .call c answer => some (c, answer)
    | .event _ => none

/-- The events. -/
def events (t : Transcript) : List Event :=
  t.filterMap fun
    | .event e => some e
    | .call .. => none

@[simp] theorem calls_nil : calls [] = [] := rfl

@[simp] theorem calls_call (c : SessionCall) (a : Except DepositError SessionAnswer)
    (t : Transcript) : calls (.call c a :: t) = (c, a) :: calls t := rfl

@[simp] theorem calls_event (e : Event) (t : Transcript) : calls (.event e :: t) = calls t := rfl

@[simp] theorem calls_append (t u : Transcript) : calls (t ++ u) = calls t ++ calls u :=
  List.filterMap_append

/-- Events are no calls. -/
@[simp] theorem calls_map_event {α : Type} (f : α → Event) (l : List α) :
    calls (l.map fun x => .event (f x)) = [] := by
  induction l with
  | nil => rfl
  | cons x l ih => simpa using ih

theorem calls_flatMap {α : Type} (f : α → Transcript) (l : List α) :
    calls (l.flatMap f) = l.flatMap fun x => calls (f x) := by
  induction l with
  | nil => rfl
  | cons x l ih => simp [ih]

end Transcript

/-- Runs an operation on the first of two states. -/
def onFirst {σ τ α : Type} (m : StateM σ α) : StateM (σ × τ) α := fun x =>
  ((m.run x.1).1, ((m.run x.1).2, x.2))

section Noting

variable {m : Type → Type} [Monad m]

/-- Makes a call and notes what it came to. -/
def noteCall {α : Type} (c : SessionCall) (shown : α → SessionAnswer)
    (make : ExceptT DepositError m α) : ExceptT DepositError (StateT Transcript m) α :=
  ExceptT.mk do
    let answer ← liftM make.run
    modify (· ++ [.call c (answer.map shown)])
    return answer

/-- Announces an event and notes it. -/
def noteEvent (notify : Event → m Unit) (e : Event) : StateT Transcript m Unit := do
  liftM (notify e)
  modify (· ++ [.event e])

/-- A session that writes its transcript. -/
def Session.noted (s : Session m) : Session (StateT Transcript m) where
  deposit r parent := noteCall (.deposit r parent) .deposited (s.deposit r parent)
  fetch uri := noteCall (.fetch uri) (fun (g, token) => .fetched g token) (s.fetch uri)
  patch uri p token := noteCall (.patch uri p token) (fun _ => .done) (s.patch uri p token)
  commit := noteCall .commit (fun _ => .done) s.commit
  rollback := noteCall .rollback (fun _ => .done) s.rollback

end Noting

section Playing

variable {σ : Type} (s : Session (StateM σ)) (notify : Event → StateM σ Unit)

/-- From state `x` the session gives the answers of the transcript and ends in state `y`. -/
def Plays : σ → Transcript → σ → Prop
  | x, [], y => x = y
  | x, .call c answer :: rest, y =>
    ((s.answer c).run x).1 = answer ∧ Plays ((s.answer c).run x).2 rest y
  | x, .event e :: rest, y => Plays ((notify e).run x).2 rest y

variable {s notify}

/-- A transcript is played part by part. -/
theorem plays_append {t u : Transcript} {x z : σ} :
    Plays s notify x (t ++ u) z ↔ ∃ y, Plays s notify x t y ∧ Plays s notify y u z := by
  induction t generalizing x with
  | nil => simp [Plays]
  | cons line t ih =>
    cases line with
    | call c answer => simp only [List.cons_append, Plays, ih, and_assoc, exists_and_left]
    | event e => simp only [List.cons_append, Plays, ih]

end Playing

/-! ## The logic of transcripts -/

section Logic

variable {σ : Type} (s : Session (StateM σ)) (notify : Event → StateM σ Unit)

/-- Every run of `noted` does what `plain` does, and adds to the transcript what the session plays
and what satisfies `P` together with the result. -/
def Notes {α : Type} (noted : ExceptT DepositError (StateT Transcript (StateM σ)) α)
    (plain : ExceptT DepositError (StateM σ) α)
    (P : Transcript → Except DepositError α → Prop) : Prop :=
  ∀ (before : Transcript) (x : σ), ∃ added result y,
    (noted.run.run before).run x = ((result, before ++ added), y) ∧
      plain.run.run x = (result, y) ∧ Plays s notify x added y ∧ P added result

variable {s notify} {α β : Type}

theorem Notes.mono {noted : ExceptT DepositError (StateT Transcript (StateM σ)) α}
    {plain : ExceptT DepositError (StateM σ) α} {P Q : Transcript → Except DepositError α → Prop}
    (h : Notes s notify noted plain P) (hPQ : ∀ added result, P added result → Q added result) :
    Notes s notify noted plain Q := by
  intro before x
  obtain ⟨added, result, y, hn, hp, hplays, hP⟩ := h before x
  exact ⟨added, result, y, hn, hp, hplays, hPQ _ _ hP⟩

theorem Notes.pure {P : Transcript → Except DepositError α → Prop} {a : α} (h : P [] (.ok a)) :
    Notes s notify (Pure.pure a) (Pure.pure a) P := by
  intro before x
  exact ⟨[], .ok a, x, by rw [List.append_nil]; rfl, rfl, rfl, h⟩

theorem Notes.throw {P : Transcript → Except DepositError α → Prop} {e : DepositError}
    (h : P [] (.error e)) : Notes s notify (MonadExcept.throw e) (MonadExcept.throw e) P := by
  intro before x
  exact ⟨[], .error e, x, by rw [List.append_nil]; rfl, rfl, rfl, h⟩

/-- What needs no session adds nothing. -/
theorem Notes.compute (v : Except DepositError α) :
    Notes s notify (liftM v) (liftM v) fun t result => t = [] ∧ result = v := by
  intro before x
  exact ⟨[], v, x, by rw [List.append_nil]; rfl, rfl, rfl, rfl, rfl⟩

/-- A sequence adds what its parts add, up to the first failure. -/
theorem Notes.bind {noted : ExceptT DepositError (StateT Transcript (StateM σ)) α}
    {plain : ExceptT DepositError (StateM σ) α}
    {notedNext : α → ExceptT DepositError (StateT Transcript (StateM σ)) β}
    {plainNext : α → ExceptT DepositError (StateM σ) β}
    {P : Transcript → Except DepositError α → Prop} {Q : Transcript → Except DepositError β → Prop}
    (first : Notes s notify noted plain P)
    (failed : ∀ added e, P added (.error e) → Q added (.error e))
    (next : ∀ added a, P added (.ok a) →
      Notes s notify (notedNext a) (plainNext a) fun more result => Q (added ++ more) result) :
    Notes s notify (noted >>= notedNext) (plain >>= plainNext) Q := by
  intro before x
  obtain ⟨added, result, y, hn, hp, hplays, hP⟩ := first before x
  cases result with
  | error e =>
    refine ⟨added, .error e, y, ?_, ?_, hplays, failed _ _ hP⟩
    · rw [ExceptT.run_bind, StateT.run_bind, StateT.run_bind, hn]
      rfl
    · rw [ExceptT.run_bind, StateT.run_bind, hp]
      rfl
  | ok a =>
    obtain ⟨more, result, z, hn', hp', hplays', hQ⟩ := next added a hP (before ++ added) y
    refine ⟨added ++ more, result, z, ?_, ?_, plays_append.mpr ⟨y, hplays, hplays'⟩, hQ⟩
    · rw [ExceptT.run_bind, StateT.run_bind, StateT.run_bind, hn, ← List.append_assoc]
      exact hn'
    · rw [ExceptT.run_bind, StateT.run_bind, hp]
      exact hp'

/-- What handles every result adds to what was added before it. -/
theorem Notes.handle {noted : ExceptT DepositError (StateT Transcript (StateM σ)) α}
    {plain : ExceptT DepositError (StateM σ) α}
    {notedNext : Except DepositError α → StateT Transcript (StateM σ) (Except DepositError β)}
    {plainNext : Except DepositError α → StateM σ (Except DepositError β)}
    {P : Transcript → Except DepositError α → Prop} {Q : Transcript → Except DepositError β → Prop}
    (first : Notes s notify noted plain P)
    (next : ∀ added a, P added a →
      Notes s notify (ExceptT.mk (notedNext a)) (ExceptT.mk (plainNext a))
        fun more result => Q (added ++ more) result) :
    Notes s notify (ExceptT.mk (noted.run >>= notedNext))
      (ExceptT.mk (plain.run >>= plainNext)) Q := by
  intro before x
  obtain ⟨added, a, y, hn, hp, hplays, hP⟩ := first before x
  obtain ⟨more, result, z, hn', hp', hplays', hQ⟩ := next added a hP (before ++ added) y
  refine ⟨added ++ more, result, z, ?_, ?_, plays_append.mpr ⟨y, hplays, hplays'⟩, hQ⟩
  · rw [ExceptT.run_mk, StateT.run_bind, StateT.run_bind, hn, ← List.append_assoc]
    exact hn'
  · rw [ExceptT.run_mk, StateT.run_bind, hp]
    exact hp'

/-- A call adds its own line. -/
theorem Notes.call {c : SessionCall} {shown : α → SessionAnswer}
    {make : ExceptT DepositError (StateM σ) α} (hc : s.answer c = shown <$> make) :
    Notes s notify (noteCall c shown make) make fun t result =>
      t = [.call c (result.map shown)] := by
  intro before x
  have answered : (s.answer c).run x = (((make.run.run x).1).map shown, (make.run.run x).2) := by
    rw [hc]
    change (ExceptT.run (shown <$> make)).run x = _
    rw [ExceptT.run_map]
    rfl
  refine ⟨[.call c ((make.run.run x).1.map shown)], (make.run.run x).1, (make.run.run x).2, rfl,
    rfl, ?_, rfl⟩
  exact ⟨by rw [answered], by rw [answered]; rfl⟩

theorem Notes.deposit (r : Resource) (parent : String) :
    Notes s notify (s.noted.deposit r parent) (s.deposit r parent) fun t result =>
      t = [.call (.deposit r parent) (result.map .deposited)] :=
  Notes.call rfl

theorem Notes.fetch (uri : String) :
    Notes s notify (s.noted.fetch uri) (s.fetch uri) fun t result =>
      t = [.call (.fetch uri) (result.map fun (g, token) => .fetched g token)] :=
  Notes.call rfl

theorem Notes.patch (uri : String) (p : Patch) (token : Token) :
    Notes s notify (s.noted.patch uri p token) (s.patch uri p token) fun t result =>
      t = [.call (.patch uri p token) (result.map fun _ => .done)] :=
  Notes.call rfl

theorem Notes.commit :
    Notes s notify s.noted.commit s.commit fun t result =>
      t = [.call .commit (result.map fun _ => .done)] :=
  Notes.call rfl

theorem Notes.rollback :
    Notes s notify s.noted.rollback s.rollback fun t result =>
      t = [.call .rollback (result.map fun _ => .done)] :=
  Notes.call rfl

/-- An event adds its own line. -/
theorem Notes.announce (e : Event) :
    Notes s notify (liftM (noteEvent notify e)) (liftM (notify e)) fun t result =>
      t = [.event e] ∧ result = .ok () := by
  intro before x
  exact ⟨[.event e], .ok (), ((notify e).run x).2, rfl, rfl, rfl, rfl, rfl⟩

/-- An event goes on to the rest, and adds its line in front. -/
theorem Notes.announceThen {e : Event}
    {notedNext : Unit → ExceptT DepositError (StateT Transcript (StateM σ)) α}
    {plainNext : Unit → ExceptT DepositError (StateM σ) α}
    {P : Transcript → Except DepositError α → Prop}
    (next : Notes s notify (notedNext ()) (plainNext ())
      fun more result => P (.event e :: more) result) :
    Notes s notify (liftM (noteEvent notify e) >>= notedNext) (liftM (notify e) >>= plainNext) P := by
  refine Notes.bind (Notes.announce e) ?_ ?_
  · rintro t e' ⟨-, he⟩
    cases he
  · rintro t _ ⟨rfl, -⟩
    exact next

/-- An event before the rest, where failures are results, adds its line in front. -/
theorem Notes.announceFirst {e : Event}
    {noted : StateT Transcript (StateM σ) (Except DepositError α)}
    {plain : StateM σ (Except DepositError α)} {P : Transcript → Except DepositError α → Prop}
    (rest : Notes s notify (ExceptT.mk noted) (ExceptT.mk plain)
      fun more result => P (.event e :: more) result) :
    Notes s notify (ExceptT.mk do noteEvent notify e; noted)
      (ExceptT.mk do notify e; plain) P := by
  intro before x
  obtain ⟨more, result, y, hn, hp, hplays, hP⟩ := rest (before ++ [.event e]) ((notify e).run x).2
  refine ⟨.event e :: more, result, y, ?_, hp, hplays, hP⟩
  rw [← List.append_cons] at hn
  exact hn

end Logic

end LinkedDeposit
