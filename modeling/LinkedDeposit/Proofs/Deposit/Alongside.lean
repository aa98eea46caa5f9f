import LinkedDeposit.Proofs.Deposit.Twins

/-!
# Programs side by side

`Twins.Alongside` is a logic for one program that runs in two sessions at once. From transcripts and
crowds that agree up to renaming (`Twins.Together`), both runs come to transcripts and crowds that
do, and to results that a relation holds of, or both to the same fault of the package. More may be
known afterwards than before, since new names are given on the way.

Results:
* `Twins.Alongside.bind`: a sequence runs alongside if its parts do.
* `Twins.Alongside.call`: a call runs alongside if it goes alike in both sessions, whatever the
  others do before it.
* `Twins.Alongside.given`: what follows may depend on a renaming.
-/

namespace LinkedDeposit

open Workspace

/-! ## Renamed transcripts -/

section Renamed

variable (ρ : Renaming)

/-- Renames the URI that an event is about. -/
def Event.rename (e : Event) : Event := { e with uri := e.uri.map ρ }

def Line.rename : Line → Line
  | .call c answer => .call (c.rename ρ) (answer.map (SessionAnswer.rename ρ))
  | .event e => .event (e.rename ρ)

namespace Transcript

def rename (t : Transcript) : Transcript := t.map (Line.rename ρ)

theorem rename_append (t u : Transcript) : rename ρ (t ++ u) = rename ρ t ++ rename ρ u :=
  List.map_append

/-- The URIs that were given out. -/
def created (t : Transcript) : List String := t.calls.flatMap fun c => newUris c.2

theorem created_append (t u : Transcript) : created (t ++ u) = created t ++ created u := by
  rw [created, calls_append, List.flatMap_append]
  rfl

theorem created_call (c : SessionCall) (answer : Except DepositError SessionAnswer) :
    created [.call c answer] = newUris answer :=
  List.append_nil _

end Transcript

end Renamed

/-! ## Noted sessions in a crowd -/

/-- A program that uses a session in a crowd and notes what it does. -/
abbrev Course (α : Type) := ExceptT DepositError (StateT Transcript (StateM Crowd)) α

namespace Site

variable (s : Site) {α : Type}

/-- The session in its crowd, with a transcript. -/
def session : Session (StateT Transcript (StateM Crowd)) := (crowded s.host s.name).noted

/-- The next call is made after the steps of the others. -/
def callNext (c : SessionCall) (x : Crowd) : Except DepositError SessionAnswer × Crowd :=
  s.call c (x.advance s.host)

/-- A call adds its line to the transcript. -/
theorem run_noteCall {c : SessionCall} {shown : α → SessionAnswer}
    {make : ExceptT DepositError (StateM Crowd) α}
    (answers : (crowded s.host s.name).answer c = shown <$> make) (before : Transcript)
    (x : Crowd) : ∃ result, result.map shown = (s.callNext c x).1 ∧
      ((noteCall c shown make).run.run before).run x =
        ((result, before ++ [.call c (s.callNext c x).1]), (s.callNext c x).2) := by
  have noted : Notes (crowded s.host s.name) (fun _ => pure ()) (noteCall c shown make) make
      fun t result => t = [.call c (result.map shown)] := Notes.call answers
  obtain ⟨_, result, y, run, -, plays, rfl⟩ := noted before x
  obtain ⟨answer, after⟩ := plays
  rw [answer_crowded] at answer after
  refine ⟨result, answer.symm, ?_⟩
  rw [run, ← answer]
  exact congrArg _ after.symm

end Site

/-- An event is noted and goes nowhere. -/
def noteQuietly (e : Event) : StateT Transcript (StateM Crowd) Unit :=
  noteEvent (fun _ => pure ()) e

namespace Twins

/-- Both sessions have gone through the same so far, up to renaming. -/
structure Together (tw : Twins) (k : Pairing) (t t' : Transcript) (x x' : Crowd) : Prop where
  level : tw.Level k x x'
  transcripts : ∀ ρ, tw.Renames k ρ → t' = t.rename ρ
  created : ∀ uri ∈ t.created, ((tw.first.transaction x).staged.get? uri).isSome = true

/-- Two results satisfy a relation, or are one fault of the package. -/
inductive SameEnd {α : Type} (Q : α → α → Prop) :
    Except DepositError α → Except DepositError α → Prop where
  | ok (a a' : α) (h : Q a a') : SameEnd Q (.ok a) (.ok a')
  | fault (e : DepositError) (h : e.IsPackageFault) : SameEnd Q (.error e) (.error e)

/-- Two programs keep both sessions together, and end alike. -/
def Alongside (tw : Twins) (k : Pairing) {α : Type} (m m' : Course α)
    (Q : Pairing → α → α → Prop) : Prop :=
  ∀ t t' x x', tw.Together k t t' x x' → ∃ k' r r' u u' y y',
    (m.run.run t).run x = ((r, u), y) ∧ (m'.run.run t').run x' = ((r', u'), y') ∧
      k.Grows k' ∧ tw.Together k' u u' y y' ∧ SameEnd (Q k') r r'

namespace Alongside

variable {tw : Twins} {k : Pairing} {α β : Type} {Q : Pairing → α → α → Prop} {m m' : Course α}

theorem mono {P : Pairing → α → α → Prop} (h : tw.Alongside k m m' P)
    (imp : ∀ k' a a', k.Grows k' → P k' a a' → Q k' a a') : tw.Alongside k m m' Q := by
  intro t t' x x' together
  obtain ⟨k', r, r', u, u', y, y', run, run', grows, after, same⟩ := h t t' x x' together
  refine ⟨k', r, r', u, u', y, y', run, run', grows, after, ?_⟩
  cases same with
  | ok a a' h => exact .ok a a' (imp k' a a' grows h)
  | fault e h => exact .fault e h

/-- **What follows may depend on a renaming** from the names of the first session to those of the
second, since there always is one. -/
theorem given (h : ∀ ρ, tw.Renames k ρ → tw.Alongside k m m' Q) : tw.Alongside k m m' Q := by
  intro t t' x x' together
  obtain ⟨ρ, hρ⟩ := together.level.exists_renames
  exact h ρ hρ t t' x x' together

/-- What needs no session leaves both where they are. -/
theorem compute {v v' : Except DepositError α} (h : SameEnd (Q k) v v') :
    tw.Alongside k (liftM v) (liftM v') Q := fun t t' x x' together =>
  ⟨k, v, v', t, t', x, x', rfl, rfl, .refl k, together, h⟩

theorem pure {a a' : α} (h : Q k a a') : tw.Alongside k (Pure.pure a) (Pure.pure a') Q :=
  fun t t' x x' together =>
    ⟨k, .ok a, .ok a', t, t', x, x', rfl, rfl, .refl k, together, .ok a a' h⟩

/-- **A sequence runs alongside** if its parts do; a fault ends both. -/
theorem bind {P : Pairing → α → α → Prop} {next next' : α → Course β}
    {Q : Pairing → β → β → Prop} (first : tw.Alongside k m m' P)
    (rest : ∀ k' a a', k.Grows k' → P k' a a' → tw.Alongside k' (next a) (next' a') Q) :
    tw.Alongside k (m >>= next) (m' >>= next') Q := by
  intro t t' x x' together
  obtain ⟨k', r, r', u, u', y, y', run, run', grows, after, same⟩ := first t t' x x' together
  cases same with
  | fault e h =>
    refine ⟨k', .error e, .error e, u, u', y, y', ?_, ?_, grows, after, .fault e h⟩
    · rw [ExceptT.run_bind, StateT.run_bind, StateT.run_bind, run]
      rfl
    · rw [ExceptT.run_bind, StateT.run_bind, StateT.run_bind, run']
      rfl
  | ok a a' h =>
    obtain ⟨k'', r, r', v, v', z, z', run₂, run₂', grows', after', same⟩ :=
      rest k' a a' grows h u u' y y' after
    refine ⟨k'', r, r', v, v', z, z', ?_, ?_, grows.trans grows', after', same⟩
    · rw [ExceptT.run_bind, StateT.run_bind, StateT.run_bind, run]
      exact run₂
    · rw [ExceptT.run_bind, StateT.run_bind, StateT.run_bind, run']
      exact run₂'

/-- An event of both runs goes on to the rest. -/
theorem announceThen {e e' : Event} (same : ∀ ρ, tw.Renames k ρ → e' = e.rename ρ)
    {next next' : Unit → Course α} (rest : tw.Alongside k (next ()) (next' ()) Q) :
    tw.Alongside k (liftM (noteQuietly e) >>= next) (liftM (noteQuietly e') >>= next') Q := by
  intro t t' x x' together
  refine rest (t ++ [.event e]) (t' ++ [.event e']) x x' ⟨together.level, fun ρ hρ => ?_, ?_⟩
  · rw [Transcript.rename_append, together.transcripts ρ hρ, same ρ hρ]
    rfl
  · rw [Transcript.created_append]
    exact List.forall_mem_append.mpr ⟨together.created, fun _ none => nomatch none⟩

/-- **A call runs alongside** if it goes alike in both sessions; the others do what they like
before it. -/
theorem call {c c' : SessionCall} {shown : α → SessionAnswer}
    {make make' : ExceptT DepositError (StateM Crowd) α}
    (answers : (crowded tw.first.host tw.first.name).answer c = shown <$> make)
    (answers' : (crowded tw.second.host tw.second.name).answer c' = shown <$> make')
    (injective : Function.Injective shown) (same : ∀ ρ, tw.Renames k ρ → c' = c.rename ρ)
    {Q : Pairing → α → Prop}
    (alike : ∀ x x', tw.Level k x x' → ∃ k', tw.Went k k' x (tw.first.call c x)
        (tw.second.call c' x') ∧
      ((∃ e, (tw.first.call c x).1 = .error e ∧ e.IsPackageFault) ∨
        ∃ a, (tw.first.call c x).1 = .ok (shown a) ∧ Q k' a)) :
    tw.Alongside k (noteCall c shown make) (noteCall c' shown make') fun k' a a' =>
      (∀ ρ, tw.Renames k' ρ → shown a' = (shown a).rename ρ) ∧ Q k' a := by
  intro t t' x x' together
  obtain ⟨k', went, came⟩ := alike _ _ together.level.advance
  obtain ⟨r, answer, run⟩ := tw.first.run_noteCall answers t x
  obtain ⟨r', answer', run'⟩ := tw.second.run_noteCall answers' t' x'
  obtain ⟨ρ, hρ⟩ := went.level.exists_renames
  refine ⟨k', r, r', _, _, _, _, run, run', went.grows, ⟨went.level, fun σ hσ => ?_, ?_⟩, ?_⟩
  · have line : Line.call c' (tw.second.callNext c' x').1 =
        (Line.call c (tw.first.callNext c x).1).rename σ := by
      rw [Line.rename, ← same σ (hσ.of_grows went.grows)]
      exact congrArg (Line.call c') (went.answers σ hσ)
    rw [Transcript.rename_append, together.transcripts σ (hσ.of_grows went.grows), line]
    rfl
  · rw [Transcript.created_append, Transcript.created_call]
    refine List.forall_mem_append.mpr ⟨fun uri hu => ?_, fun uri hu => went.staged uri (.inr hu)⟩
    refine went.staged uri (.inl ?_)
    rw [together.level.first.advance.2]
    exact together.created uri hu
  · have renamed (σ : Renaming) (hσ : tw.Renames k' σ) :
        r'.map shown = (r.map shown).map (SessionAnswer.rename σ) := by
      rw [answer', answer]
      exact went.answers σ hσ
    rcases came with ⟨e, refused, fault⟩ | ⟨a, answered, holds⟩
    · have failed : r = .error e := by
        cases r with
        | error e' => exact congrArg _ (Except.error.inj (answer.trans refused))
        | ok a => cases answer.trans refused
      subst failed
      cases r' with
      | error e' =>
        cases renamed ρ hρ
        exact .fault e fault
      | ok a' => cases renamed ρ hρ
    · have succeeded : r = .ok a := by
        cases r with
        | error e => cases answer.trans answered
        | ok a' => exact congrArg _ (injective (Except.ok.inj (answer.trans answered)))
      subst succeeded
      cases r' with
      | error e => cases renamed ρ hρ
      | ok a' => exact .ok a a' ⟨fun σ hσ => Except.ok.inj (renamed σ hσ), holds⟩

/-! ## Calls of both programs -/

theorem deposit {r : Resource} {parent parent' : String}
    (kept : tw.Reserves r.mentions)
    (holds : tw.Holds k parent)
    (same : ∀ ρ, tw.Renames k ρ → parent' = ρ parent) :
    tw.Alongside k (tw.first.session.deposit r parent) (tw.second.session.deposit r parent')
      fun k' d d' => (∀ ρ, tw.Renames k' ρ → d' = d.rename ρ) ∧ d = r.placed d.uri ∧
        (d.uri, r.kind) ∈ k'.staged ∧
          ∀ δ ∈ r.description?, (Transaction.descriptionUri d.uri, .rdfSource) ∈ k'.staged := by
  refine (call rfl rfl (fun _ _ => SessionAnswer.deposited.inj)
    (fun ρ hρ => by rw [same ρ hρ]; rfl) (Q := fun k' d => d = r.placed d.uri ∧
      (d.uri, r.kind) ∈ k'.staged ∧
        ∀ δ ∈ r.description?, (Transaction.descriptionUri d.uri, .rdfSource) ∈ k'.staged)
    fun x x' level => ?_).mono fun k' d d' _ h =>
      ⟨fun ρ hρ => SessionAnswer.deposited.inj (h.1 ρ hρ), h.2⟩
  obtain ⟨k', went, faulty | ⟨uri, answered, staged⟩⟩ := level.deposit kept holds same
  · exact ⟨k', went, .inl faulty⟩
  · exact ⟨k', went, .inr ⟨r.placed uri, answered, rfl, staged⟩⟩

variable {uri uri' : String}

theorem fetch {kind : ResourceKind} (known : (uri, kind) ∈ k.staged)
    (isRdf : kind ≠ .nonRdfSource) (same : ∀ ρ, tw.Renames k ρ → uri' = ρ uri) :
    tw.Alongside k (tw.first.session.fetch uri) (tw.second.session.fetch uri')
      fun k' a a' => (∀ ρ, tw.Renames k' ρ → a' = (a.1.rename ρ, a.2)) ∧
        k'.fetched = some (uri, a.2) := by
  have injective : Function.Injective fun (g, token) => SessionAnswer.fetched g token := by
    rintro ⟨g, token⟩ ⟨g', token'⟩ same
    obtain ⟨rfl, rfl⟩ := SessionAnswer.fetched.inj same
    rfl
  refine (call rfl rfl injective (fun ρ hρ => by rw [same ρ hρ]; rfl)
    (Q := fun k' a => k'.fetched = some (uri, a.2)) fun x x' level => ?_).mono
      fun k' a a' _ h => ⟨fun ρ hρ => injective (h.1 ρ hρ), h.2⟩
  obtain ⟨g, token, went, answered⟩ := level.fetch known isRdf same
  exact ⟨_, went, .inr ⟨(g, token), answered, rfl⟩⟩

theorem patch {p p' : Patch} {token : Token} (fetched : k.fetched = some (uri, token))
    (proper : p.isEmpty = false) (same : ∀ ρ, tw.Renames k ρ → uri' = ρ uri ∧ p' = p.rename ρ) :
    tw.Alongside k (tw.first.session.patch uri p token) (tw.second.session.patch uri' p' token)
      fun _ _ _ => True := by
  refine (call rfl rfl (fun _ _ _ => rfl)
    (fun ρ hρ => by rw [(same ρ hρ).1, (same ρ hρ).2]; rfl) (Q := fun _ _ => True)
    fun x x' level => ?_).mono fun _ _ _ _ _ => trivial
  obtain ⟨went, answered⟩ := level.patch fetched proper same
  exact ⟨_, went, .inr ⟨(), answered, trivial⟩⟩

end Alongside

end Twins

end LinkedDeposit
