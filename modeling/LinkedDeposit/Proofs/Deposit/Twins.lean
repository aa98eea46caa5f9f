import LinkedDeposit.Proofs.Deposit.Crowd
import LinkedDeposit.Proofs.Link.Renamed

/-!
# Two sessions side by side

Two sessions make the same calls, each in a crowd of its own. What they stage differs in the names
that their hosts gave to new resources. A `Pairing` notes which names belong together, and whatever
renaming takes the ones to the others takes the transaction of the first session to that of the
second (`Twins.Alike`). Since this is said of every such renaming, it goes on holding when more
names are given.

The sessions create and patch only below the target and what they have staged themselves, where
the others do not come. So a call of both comes to the same, up to renaming.

Results:
* `Twins.Level.exists_renames`: there is a renaming from the names of the first to those of the
  second.
* `Twins.Level.advance`: the others change nothing of this.
* `Twins.Level.deposit`, `Twins.Level.fetch`, `Twins.Level.patch`: calls of both sessions go alike.
-/

namespace LinkedDeposit

open Workspace

/-! ## Renamed calls -/

section Renamed

variable (ρ : Renaming)

/-- Renames the URIs that a call names, and the links of a patch. -/
def SessionCall.rename : SessionCall → SessionCall
  | .deposit r parent => .deposit r (ρ parent)
  | .fetch uri => .fetch (ρ uri)
  | .patch uri p token => .patch (ρ uri) (p.rename ρ) token
  | .commit => .commit
  | .rollback => .rollback

def SessionAnswer.rename : SessionAnswer → SessionAnswer
  | .deposited d => .deposited (d.rename ρ)
  | .fetched g token => .fetched (g.rename ρ) token
  | .done => .done

end Renamed

/-! ## One session -/

/-- The session of a name on a host whose names for new resources are fresh. -/
structure Site where
  host : Host
  name : String
  /-- The number of resources that were deposited before. -/
  start : Nat
  fresh : host.NamesFresh
  /-- No name has the start of a fragment in it. -/
  plain : ∀ count, '#' ∉ (host.freshName count).toList

namespace Site

variable (s : Site)

theorem bare (count : Nat) : IsBareName (s.host.freshName count) where
  nonempty := (s.fresh.segment count).nonempty
  bare c hc := by
    have noSlash : c ≠ '/' := by
      rintro rfl
      exact (s.fresh.segment count).plain hc
    have noHash : c ≠ '#' := by
      rintro rfl
      exact s.plain count hc
    simp [isDelimiter, noSlash, noHash]

/-- Names that were given since the start, up to a count. -/
structure Gave (reserved : List String) (count : Nat) (names : List String) : Prop where
  since : s.start ≤ count
  distinct : names.Nodup
  unreserved : ∀ n ∈ names, n ∉ reserved
  given : ∀ n ∈ names, ∃ k, s.start < k ∧ k ≤ count ∧ n = s.host.freshName k

/-- The crowd around the session is ready for its next call. -/
structure Meets (target : String) (reserved names : List String) (x : Crowd) : Prop where
  ready : x.Ready s.host s.name target reserved
  gave : s.Gave reserved x.1.deposits names

def transaction (x : Crowd) : Transaction := x.1.transaction s.name

/-- The session makes a call. -/
def call (c : SessionCall) (x : Crowd) : Except DepositError SessionAnswer × Crowd :=
  ((x.1.step s.host s.name c).1, ((x.1.step s.host s.name c).2, x.2))

variable {s} {reserved names : List String} {count : Nat} {target : String} {x : Crowd}

theorem Gave.later (h : s.Gave reserved count names) {count' : Nat} (le : count ≤ count') :
    s.Gave reserved count' names where
  since := Nat.le_trans h.since le
  distinct := h.distinct
  unreserved := h.unreserved
  given n hn := by
    obtain ⟨k, after, before, rfl⟩ := h.given n hn
    exact ⟨k, after, Nat.le_trans before le, rfl⟩

/-- The next name is none of those that were given. -/
theorem Gave.next (h : s.Gave reserved count names)
    (free : s.host.freshName (count + 1) ∉ reserved) :
    s.Gave reserved (count + 1) (s.host.freshName (count + 1) :: names) where
  since := Nat.le_succ_of_le h.since
  distinct := by
    refine List.nodup_cons.mpr ⟨fun old => ?_, h.distinct⟩
    obtain ⟨k, -, before, same⟩ := h.given _ old
    rw [← s.fresh.injective same] at before
    exact Nat.not_succ_le_self _ before
  unreserved := List.forall_mem_cons.mpr ⟨free, h.unreserved⟩
  given := List.forall_mem_cons.mpr
    ⟨⟨count + 1, Nat.lt_succ_of_le h.since, Nat.le_refl _, rfl⟩,
      (h.later (Nat.le_succ count)).given⟩

theorem Meets.advance (h : s.Meets target reserved names x) :
    s.Meets target reserved names (x.advance s.host) ∧
      s.transaction (x.advance s.host) = s.transaction x := by
  obtain ⟨ready, same, later⟩ := h.ready.advance s.fresh
  exact ⟨⟨ready, h.gave.later later⟩, same⟩

theorem Meets.call (h : s.Meets target reserved names x) (c : SessionCall) :
    s.Meets target reserved names (s.call c x).2 :=
  ⟨h.ready.step s.fresh c, h.gave.later deposits_le_step⟩

/-- After a deposit one more name is given. -/
theorem Meets.named (h : s.Meets target reserved names x) {c : SessionCall}
    (counted : (s.call c x).2.1.deposits = x.1.deposits + 1) :
    s.Meets target reserved (s.host.freshName (x.1.deposits + 1) :: names) (s.call c x).2 := by
  refine ⟨h.ready.step s.fresh c, ?_⟩
  rw [counted]
  exact h.gave.next (h.ready.workspace.unreserved _ (Nat.lt_succ_self _))

/-- What a call comes to is read off the transaction. -/
theorem call_eq {c : SessionCall} {answer : Except DepositError SessionAnswer} {r : Repository}
    {t : Transaction} (performed : (s.transaction x).perform s.host.files
      (s.host.freshName (x.1.deposits + 1)) x.1.repository c = (answer, r, t)) :
    s.call c x = (answer, (x.1.after s.name c (answer, r, t), x.2)) ∧
      s.transaction (s.call c x).2 = t := by
  have made : s.call c x = (answer, (x.1.after s.name c (answer, r, t), x.2)) := by
    unfold call
    rw [step_eq]
    change (((s.transaction x).perform _ _ _ c).1,
      (x.1.after s.name c ((s.transaction x).perform _ _ _ c), x.2)) = _
    rw [performed]
  refine ⟨made, ?_⟩
  rw [made]
  exact transaction_after_self x.1 s.name c _

end Site

/-! ## Both sessions -/

/-- Two sessions with the same files that deposit below one target. -/
structure Twins where
  first : Site
  second : Site
  target : String
  /-- The segments that no new resource is named. -/
  reserved : List String
  files : second.host.files = first.host.files
  target_reserved : ∀ n ∈ uriSegments target, n ∈ reserved
  description_reserved : Vocabulary.descriptionSegment ∈ reserved

/-- What is known of two sessions that make the same calls. -/
structure Pairing where
  /-- The names of new resources, each that of the first session with that of the second. -/
  names : List (String × String)
  /-- Where the first session has staged resources, and of which kinds. -/
  staged : List (String × ResourceKind)
  /-- The resource that it fetched last, in its present state. -/
  fetched : Option (String × Token)

namespace Pairing

/-- More is known: what was fetched need not be in its present state any more. -/
structure Grows (k k' : Pairing) : Prop where
  names : k.names ⊆ k'.names
  staged : k.staged ⊆ k'.staged

theorem Grows.refl (k : Pairing) : k.Grows k := ⟨List.Subset.refl _, List.Subset.refl _⟩

theorem Grows.trans {k k' k'' : Pairing} (h : k.Grows k') (h' : k'.Grows k'') : k.Grows k'' :=
  ⟨fun _ hn => h'.names (h.names hn), fun _ hs => h'.staged (h.staged hs)⟩

/-- A resource was created at a URI, under names that belong together. -/
def placed (k : Pairing) (r : Resource) (uri n n' : String) : Pairing where
  names := (n, n') :: k.names
  staged := (uri, r.kind) ::
    r.description?.toList.map (fun _ => (Transaction.descriptionUri uri, .rdfSource)) ++ k.staged
  fetched := none

theorem grows_placed (k : Pairing) (r : Resource) (uri n n' : String) :
    k.Grows (k.placed r uri n n') :=
  ⟨List.subset_cons_self _ _, List.subset_append_right _ _⟩

end Pairing

namespace Twins

/-- A renaming takes the names of the first session to those of the second and leaves reserved
ones. -/
structure Renames (tw : Twins) (k : Pairing) (ρ : Renaming) : Prop where
  named : ∀ n ∈ k.names, ρ.names n.1 = n.2
  kept : ∀ n ∈ tw.reserved, ρ.names n = n

/-- What the first session has staged is what the second has staged, up to renaming, and neither
has patched anything that was there before. -/
structure Alike (tw : Twins) (k : Pairing) (t t' : Transaction) : Prop where
  unfinished : t.lifecycle.isFinished = false
  unfinished' : t'.lifecycle.isFinished = false
  staged : ∀ ρ, tw.Renames k ρ → ρ.Moves (Stored.rename ρ) t.staged t'.staged
  contained : ∀ ρ, tw.Renames k ρ → t'.contained = renameChildren ρ t.contained
  unpatched : t.baseVersions = Table.empty
  unpatched' : t'.baseVersions = Table.empty
  kinds : ∀ uri kind, (uri, kind) ∈ k.staged → ∃ s, t.staged.get? uri = some s ∧ s.kind = kind
  current : ∀ uri token, k.fetched = some (uri, token) →
    ∃ s, t.staged.get? uri = some s ∧ s.token = token

/-- Both sessions are ready for their next call. -/
structure Level (tw : Twins) (k : Pairing) (x x' : Crowd) : Prop where
  first : tw.first.Meets tw.target tw.reserved (k.names.map Prod.fst) x
  second : tw.second.Meets tw.target tw.reserved (k.names.map Prod.snd) x'
  alike : tw.Alike k (tw.first.transaction x) (tw.second.transaction x')

/-- All segments of some URIs are reserved. -/
def Reserves (tw : Twins) (uris : List String) : Prop :=
  ∀ uri ∈ uris, ∀ n ∈ uriSegments uri, n ∈ tw.reserved

/-- Something can be deposited below the target, and below what was staged as a container. -/
def Holds (tw : Twins) (k : Pairing) (parent : String) : Prop :=
  parent = tw.target ∨ (parent, .container) ∈ k.staged

variable {tw : Twins} {k k' : Pairing} {ρ : Renaming} {x x' : Crowd}

theorem Holds.grows {parent : String} (h : tw.Holds k parent) (grows : k.Grows k') :
    tw.Holds k' parent :=
  h.imp id fun staged => grows.staged staged

theorem Renames.of_grows (h : tw.Renames k' ρ) (grows : k.Grows k') : tw.Renames k ρ :=
  ⟨fun n hn => h.named n (grows.names hn), h.kept⟩

/-- What has only reserved segments stays. -/
theorem Renames.apply_eq_self (h : tw.Renames k ρ) {uri : String}
    (reserved : ∀ n ∈ uriSegments uri, n ∈ tw.reserved) : ρ uri = uri :=
  ρ.apply_eq_self fun n hn => h.kept n (reserved n hn)

theorem Renames.apply_target (h : tw.Renames k ρ) : ρ tw.target = tw.target :=
  h.apply_eq_self tw.target_reserved

/-- **There is a renaming** from the names of the first session to those of the second that moves
no others. -/
theorem exists_renames {count count' : Nat}
    (gave : tw.first.Gave tw.reserved count (k.names.map Prod.fst))
    (gave' : tw.second.Gave tw.reserved count' (k.names.map Prod.snd)) :
    ∃ ρ, tw.Renames k ρ ∧
      ∀ n, ρ.names n ≠ n → n ∈ k.names.map Prod.fst ∨ n ∈ k.names.map Prod.snd := by
  have bare {s : Site} {count : Nat} {names : List String} (gave : s.Gave tw.reserved count names) :
      ∀ n ∈ names, IsBareName n := by
    intro n hn
    obtain ⟨k, -, -, rfl⟩ := gave.given n hn
    exact s.bare k
  obtain ⟨ρ, image, moved⟩ := Renaming.exists_of_nodup (by simp) gave.distinct gave'.distinct
    (bare gave) (bare gave')
  rw [List.map_map] at image
  refine ⟨ρ, ⟨List.map_inj_left.mp image, fun n hn => ?_⟩, moved⟩
  by_contra hm
  exact (moved n hm).elim (fun given => gave.unreserved n given hn)
    fun given => gave'.unreserved n given hn

theorem Level.exists_renames (h : tw.Level k x x') : ∃ ρ, tw.Renames k ρ :=
  (Twins.exists_renames h.first.gave h.second.gave).imp fun _ => And.left

/-- **The steps of the others change nothing** of what both sessions have in common. -/
theorem Level.advance (h : tw.Level k x x') :
    tw.Level k (x.advance tw.first.host) (x'.advance tw.second.host) := by
  obtain ⟨first, same⟩ := h.first.advance
  obtain ⟨second, same'⟩ := h.second.advance
  refine ⟨first, second, ?_⟩
  rw [same, same']
  exact h.alike

/-! ## What both sessions see -/

theorem shown_rename {t t' : Transaction} (contained : t'.contained = renameChildren ρ t.contained)
    (uri : String) (s : Stored) : t'.shown (ρ uri) (s.rename ρ) = (t.shown uri s).rename ρ := by
  unfold Transaction.shown Stored.rename
  rw [contained, containments_rename, Graph.rename_union]

/-- Both see what the first has staged, in whatever repositories. -/
theorem Alike.seen {t t' : Transaction} (h : tw.Alike k t t') {uri : String} {s : Stored}
    (staged : t.staged.get? uri = some s) (r r' : Repository) :
    t.lookup r uri = some (t.shown uri s) ∧
      ∀ ρ, tw.Renames k ρ → t'.lookup r' (ρ uri) = some ((t.shown uri s).rename ρ) := by
  refine ⟨?_, fun ρ hρ => ?_⟩
  · rw [Transaction.lookup_eq, staged]
    rfl
  · rw [Transaction.lookup_eq, h.staged ρ hρ uri, staged, ← shown_rename (h.contained ρ hρ)]
    rfl

/-- The target, and what was staged as a container, is one to both. -/
theorem Level.container (h : tw.Level k x x') {parent parent' : String}
    (holds : tw.Holds k parent)
    (same : ∀ ρ, tw.Renames k ρ → parent' = ρ parent) :
    (∃ c, (tw.first.transaction x).lookup x.1.repository parent = some c ∧ c.kind = .container) ∧
      ∃ c, (tw.second.transaction x').lookup x'.1.repository parent' = some c ∧
        c.kind = .container := by
  obtain ⟨ρ, hρ⟩ := h.exists_renames
  rw [same ρ hρ]
  rcases holds with rfl | known
  · rw [hρ.apply_target]
    exact ⟨h.first.ready.workspace.lookup_target h.alike.unpatched,
      h.second.ready.workspace.lookup_target h.alike.unpatched'⟩
  · obtain ⟨s, staged, kind⟩ := h.alike.kinds _ _ known
    obtain ⟨first, second⟩ := h.alike.seen staged x.1.repository x'.1.repository
    exact ⟨⟨_, first, kind⟩, ⟨_, second ρ hρ, kind⟩⟩

/-! ## Calls of both sessions -/

/-- Both sessions have made a call, and it went alike. -/
structure Went (tw : Twins) (k k' : Pairing) (x : Crowd)
    (out out' : Except DepositError SessionAnswer × Crowd) : Prop where
  grows : k.Grows k'
  level : tw.Level k' out.2 out'.2
  answers : ∀ ρ, tw.Renames k' ρ → out'.1 = out.1.map (SessionAnswer.rename ρ)
  /-- What the first session had staged, and what it was given now, is staged. -/
  staged : ∀ uri, ((tw.first.transaction x).staged.get? uri).isSome = true ∨ uri ∈ newUris out.1 →
    ((tw.first.transaction out.2).staged.get? uri).isSome = true

theorem Alike.request {t t' : Transaction} (h : tw.Alike k t t') :
    tw.Alike k t.request t'.request :=
  { h with unfinished := rfl, unfinished' := rfl }

section Deposit

variable {r : Resource} {parent parent' : String}

/-- A resource that cannot be stored is refused by both. -/
theorem Level.deposit_fault (h : tw.Level k x x')
    (holds : tw.Holds k parent)
    (same : ∀ ρ, tw.Renames k ρ → parent' = ρ parent) {e : DepositError}
    (stored : ∀ uri, r.stored tw.first.host.files uri = .error e) :
    tw.Went k k x (tw.first.call (.deposit r parent) x) (tw.second.call (.deposit r parent') x') ∧
      (tw.first.call (.deposit r parent) x).1 = .error e := by
  obtain ⟨⟨c, seen, isContainer⟩, c', seen', isContainer'⟩ := h.container holds same
  obtain ⟨made, after⟩ := Site.call_eq (s := tw.first) (x := x)
    (Transaction.perform_deposit_error h.alike.unfinished seen isContainer (stored _))
  obtain ⟨made', after'⟩ := Site.call_eq (s := tw.second) (x := x')
    (Transaction.perform_deposit_error h.alike.unfinished' seen' isContainer'
      (tw.files ▸ stored _))
  refine ⟨⟨.refl k, ⟨h.first.call _, h.second.call _, ?_⟩, fun ρ _ => ?_, fun uri held => ?_⟩, ?_⟩
  · rw [after, after']
    exact h.alike.request
  · rw [made, made']
    rfl
  · rw [made] at held
    rw [after]
    exact held.elim id fun new => nomatch new
  · rw [made]

/-- What is stored for a resource is put beside what was staged before. -/
theorem Alike.place {t t' : Transaction} (h : tw.Alike k t t')
    (same : ∀ ρ, tw.Renames k ρ → parent' = ρ parent) {uri uri' n n' : String}
    {new new' : Table String Stored}
    (moved : ∀ ρ, tw.Renames (k.placed r uri n n') ρ →
      uri' = ρ uri ∧ ρ.Moves (Stored.rename ρ) new new')
    (apart : ∀ u, (t.staged.get? u).isSome = true → new.get? u = none)
    (kinds : (∃ s, new.get? uri = some s ∧ s.kind = r.kind) ∧
      ∀ d ∈ r.description?, ∃ s, new.get? (Transaction.descriptionUri uri) = some s ∧
        s.kind = .rdfSource) :
    tw.Alike (k.placed r uri n n') (t.place parent uri new) (t'.place parent' uri' new') where
  unfinished := rfl
  unfinished' := rfl
  staged ρ hρ := (h.staged ρ (hρ.of_grows (k.grows_placed r uri n n'))).union (moved ρ hρ).2
  contained ρ hρ := by
    have before := hρ.of_grows (k.grows_placed r uri n n')
    change t'.contained ++ [(parent', uri')] = renameChildren ρ (t.contained ++ [(parent, uri)])
    rw [h.contained ρ before, same ρ before, (moved ρ hρ).1, renameChildren, renameChildren,
      List.map_append]
    rfl
  unpatched := h.unpatched
  unpatched' := h.unpatched'
  kinds u kind hu := by
    have here {s : Stored} (found : new.get? u = some s) :
        (t.place parent uri new).staged.get? u = some s := by
      rw [Transaction.place, Table.get?_union, found]
      rfl
    rcases List.mem_cons.mp hu with own | hu
    · cases own
      obtain ⟨s, found, isKind⟩ := kinds.1
      exact ⟨s, here found, isKind⟩
    rcases List.mem_append.mp hu with described | old
    · obtain ⟨d, hd, own⟩ := List.mem_map.mp described
      cases own
      obtain ⟨s, found, isKind⟩ := kinds.2 d (Option.mem_toList.mp hd)
      exact ⟨s, here found, isKind⟩
    · obtain ⟨s, found, isKind⟩ := h.kinds u kind old
      refine ⟨s, ?_, isKind⟩
      rw [Transaction.place, Table.get?_union, apart u (by rw [found]; rfl), found]
      rfl
  current _ _ held := nomatch held

/-- A resource that can be stored is created by both, with the names that are at hand. -/
theorem Level.deposit_placed (h : tw.Level k x x')
    (kept : tw.Reserves r.mentions)
    (holds : tw.Holds k parent)
    (same : ∀ ρ, tw.Renames k ρ → parent' = ρ parent) {uri n : String}
    (hn : tw.first.host.freshName (x.1.deposits + 1) = n)
    (hu : Transaction.childUri parent n = uri) {new : Table String Stored}
    (stored : r.stored tw.first.host.files uri = .ok new) :
    tw.Went k (k.placed r uri n (tw.second.host.freshName (x'.1.deposits + 1))) x
        (tw.first.call (.deposit r parent) x) (tw.second.call (.deposit r parent') x') ∧
      (tw.first.call (.deposit r parent) x).1 = .ok (.deposited (r.placed uri)) := by
  generalize hn' : tw.second.host.freshName (x'.1.deposits + 1) = n'
  generalize hu' : Transaction.childUri parent' n' = uri'
  have grows := k.grows_placed r uri n n'
  have gave := h.first.gave.next (h.first.ready.workspace.unreserved _ (Nat.lt_succ_self _))
  have gave' := h.second.gave.next (h.second.ready.workspace.unreserved _ (Nat.lt_succ_self _))
  have bare := tw.first.bare (x.1.deposits + 1)
  rw [hn] at gave bare
  rw [hn'] at gave'
  -- whatever takes the names to each other takes the URI to the URI
  have moved (ρ : Renaming) (hρ : tw.Renames (k.placed r uri n n') ρ) : uri' = ρ uri := by
    have named : ρ.names n = n' := hρ.named (n, n') List.mem_cons_self
    rw [← hu', ← hu, ← named, same ρ (hρ.of_grows grows)]
    exact childUri_rename bare parent
  have storedAt (ρ : Renaming) (hρ : tw.Renames (k.placed r uri n n') ρ) :
      ∃ new', r.stored tw.second.host.files uri' = .ok new' ∧
        ρ.Moves (Stored.rename ρ) new new' := by
    rw [moved ρ hρ, tw.files]
    exact stored_rename (hρ.kept _ tw.description_reserved)
      (fun s hs => hρ.apply_eq_self (kept s hs)) stored
  obtain ⟨ρ, hρ, -⟩ := Twins.exists_renames (k := k.placed r uri n n') gave gave'
  obtain ⟨new', stored', -⟩ := storedAt ρ hρ
  obtain ⟨⟨c, seen, isContainer⟩, c', seen', isContainer'⟩ := h.container holds same
  subst hn hn' hu hu'
  obtain ⟨made, after⟩ := Site.call_eq (s := tw.first) (x := x)
    (Transaction.perform_deposit h.alike.unfinished seen isContainer stored)
  obtain ⟨made', after'⟩ := Site.call_eq (s := tw.second) (x := x')
    (Transaction.perform_deposit h.alike.unfinished' seen' isContainer' stored')
  have first := h.first.named (c := .deposit r parent) (by rw [made]; rfl)
  have second := h.second.named (c := .deposit r parent') (by rw [made']; rfl)
  -- nothing was staged where the new resource comes to stand
  have apart (u : String) (held : ((tw.first.transaction x).staged.get? u).isSome = true) :
      new.get? u = none := by
    refine Resource.get?_stored_eq_none stored fun placed => ?_
    have unused := h.first.ready.workspace.unused _ (Nat.lt_succ_self _) u
      ⟨parent, Resource.mem_uris_placed placed⟩
    rw [Site.transaction, unused.2 tw.first.name] at held
    cases held
  refine ⟨⟨grows, ⟨first, second, ?_⟩, fun ρ hρ => ?_, fun u held => ?_⟩, by rw [made]⟩
  · rw [after, after']
    refine h.alike.place same (fun ρ hρ => ⟨moved ρ hρ, ?_⟩) apart
      (Resource.get?_stored_kind stored)
    obtain ⟨_, again, moves⟩ := storedAt ρ hρ
    cases stored'.symm.trans again
    exact moves
  · rw [made, made', moved ρ hρ, placed_rename (hρ.kept _ tw.description_reserved)]
    rfl
  · rw [made] at held
    rw [after, Transaction.place, Table.get?_union, Option.isSome_or, Bool.or_eq_true]
    exact held.symm.imp (Resource.get?_stored_isSome stored u).mpr id

/-- **A deposit of both sessions goes alike**: both create the resource, or the package is at
fault. -/
theorem Level.deposit (h : tw.Level k x x')
    (kept : tw.Reserves r.mentions)
    (holds : tw.Holds k parent)
    (same : ∀ ρ, tw.Renames k ρ → parent' = ρ parent) :
    ∃ k', tw.Went k k' x (tw.first.call (.deposit r parent) x)
        (tw.second.call (.deposit r parent') x') ∧
      ((∃ e, (tw.first.call (.deposit r parent) x).1 = .error e ∧ e.IsPackageFault) ∨
        ∃ uri, (tw.first.call (.deposit r parent) x).1 = .ok (.deposited (r.placed uri)) ∧
          (uri, r.kind) ∈ k'.staged ∧
          ∀ d ∈ r.description?, (Transaction.descriptionUri uri, .rdfSource) ∈ k'.staged) := by
  generalize hn : tw.first.host.freshName (x.1.deposits + 1) = n
  generalize hu : Transaction.childUri parent n = uri
  cases stored : r.stored tw.first.host.files uri with
  | error e =>
    obtain ⟨went, answer⟩ := h.deposit_fault holds same fun uri' =>
      (Resource.stored_error stored uri').1
    exact ⟨k, went, .inl ⟨e, answer, (Resource.stored_error stored uri).2⟩⟩
  | ok new =>
    obtain ⟨went, answer⟩ := h.deposit_placed kept holds same hn hu stored
    refine ⟨_, went, .inr ⟨uri, answer, List.mem_cons_self, fun d hd => ?_⟩⟩
    refine List.mem_cons_of_mem _ (List.mem_append_left _ (List.mem_map.mpr ⟨d, ?_, rfl⟩))
    exact Option.mem_toList.mpr hd

end Deposit

section Relink

variable {uri uri' : String} {kind : ResourceKind} {token : Token} {p p' : Patch}

/-- What is known does not depend on what was fetched last. -/
theorem Renames.of_fetched {fetched : Option (String × Token)}
    (h : tw.Renames { k with fetched } ρ) : tw.Renames k ρ :=
  ⟨h.named, h.kept⟩

/-- **A fetch of both sessions goes alike**, of what they have staged. -/
theorem Level.fetch (h : tw.Level k x x') (known : (uri, kind) ∈ k.staged)
    (isRdf : kind ≠ .nonRdfSource) (same : ∀ ρ, tw.Renames k ρ → uri' = ρ uri) :
    ∃ g token, tw.Went k { k with fetched := some (uri, token) } x (tw.first.call (.fetch uri) x)
        (tw.second.call (.fetch uri') x') ∧
      (tw.first.call (.fetch uri) x).1 = .ok (.fetched g token) := by
  obtain ⟨s, staged, rfl⟩ := h.alike.kinds _ _ known
  obtain ⟨seen, seen'⟩ := h.alike.seen staged x.1.repository x'.1.repository
  have seen' (σ : Renaming) (hσ : tw.Renames k σ) := same σ hσ ▸ seen' σ hσ
  generalize hv : (tw.first.transaction x).shown uri s = v at seen seen'
  have version : v.version = s.version := by
    rw [← hv]
    rfl
  have isRdf : v.kind ≠ .nonRdfSource := by
    rw [← hv]
    exact isRdf
  obtain ⟨ρ, hρ⟩ := h.exists_renames
  have isRdf' : (v.rename ρ).kind ≠ .nonRdfSource := isRdf
  obtain ⟨made, after⟩ := Site.call_eq (s := tw.first) (x := x)
    (Transaction.perform_fetch h.alike.unfinished seen isRdf)
  obtain ⟨made', after'⟩ := Site.call_eq (s := tw.second) (x := x')
    (Transaction.perform_fetch h.alike.unfinished' (seen' ρ hρ) isRdf')
  refine ⟨v.graph, v.token, ⟨⟨List.Subset.refl _, List.Subset.refl _⟩,
    ⟨h.first.call _, h.second.call _, ?_⟩, fun σ hσ => ?_, fun u held => ?_⟩, by rw [made]⟩
  · rw [after, after']
    refine { h.alike.request with
      staged := fun σ hσ => h.alike.staged σ hσ.of_fetched
      contained := fun σ hσ => h.alike.contained σ hσ.of_fetched
      current := ?_ }
    rintro _ _ ⟨⟩
    refine ⟨s, staged, ?_⟩
    rw [Stored.token, Stored.token, version]
  · have both : v.rename ρ = v.rename σ :=
      Option.some.inj ((seen' ρ hρ).symm.trans (seen' σ hσ.of_fetched))
    rw [made, made', both]
    rfl
  · rw [made] at held
    rw [after]
    exact held.elim id fun new => nomatch new

/-- Both sessions change something that they have staged themselves. -/
theorem Alike.amend {t t' : Transaction} (h : tw.Alike k t t')
    (same : ∀ ρ, tw.Renames k ρ → uri' = ρ uri ∧ p' = p.rename ρ)
    {s v v' : Stored} (staged : t.staged.get? uri = some s) (kind : v.kind = s.kind)
    (renamed : ∀ ρ, tw.Renames k ρ → v' = v.rename ρ) (named : ∃ ρ, tw.Renames k ρ) :
    tw.Alike { k with fetched := none } (t.amend uri p v) (t'.amend uri' p' v') where
  unfinished := rfl
  unfinished' := rfl
  staged ρ hρ := by
    have moved := (h.staged ρ hρ.of_fetched).insert uri
      { v with graph := p.applyTo v.graph, version := v.version + 1 }
    obtain ⟨hu, hp⟩ := same ρ hρ.of_fetched
    have patched : ({ v with graph := p.applyTo v.graph, version := v.version + 1 } : Stored).rename
        ρ = { v' with graph := p'.applyTo v'.graph, version := v'.version + 1 } := by
      rw [renamed ρ hρ.of_fetched, hp, Stored.rename, Stored.rename, Patch.applyTo_rename]
    rwa [patched, ← hu] at moved
  contained ρ hρ := h.contained ρ hρ.of_fetched
  unpatched := by
    have own : t.staged.contains uri = true := by
      rw [Table.contains, staged]
      rfl
    exact (if_pos own).trans h.unpatched
  unpatched' := by
    obtain ⟨ρ, hρ⟩ := named
    have own : t'.staged.contains uri' = true := by
      rw [Table.contains, (same ρ hρ).1, h.staged ρ hρ uri, staged]
      rfl
    exact (if_pos own).trans h.unpatched'
  kinds u kind' hu := by
    rw [Transaction.get?_staged_amend]
    obtain ⟨s', found, isKind⟩ := h.kinds u kind' hu
    by_cases here : u = uri
    · subst here
      obtain rfl := Option.some.inj (staged.symm.trans found)
      exact ⟨_, if_pos rfl, kind.trans isKind⟩
    · exact ⟨s', (if_neg here).trans found, isKind⟩
  current _ _ held := nomatch held

/-- **A patch of both sessions goes alike**, if it is of what they have fetched last. -/
theorem Level.patch (h : tw.Level k x x') (fetched : k.fetched = some (uri, token))
    (proper : p.isEmpty = false) (same : ∀ ρ, tw.Renames k ρ → uri' = ρ uri ∧ p' = p.rename ρ) :
    tw.Went k { k with fetched := none } x (tw.first.call (.patch uri p token) x)
        (tw.second.call (.patch uri' p' token) x') ∧
      (tw.first.call (.patch uri p token) x).1 = .ok .done := by
  obtain ⟨s, staged, rfl⟩ := h.alike.current _ _ fetched
  obtain ⟨seen, seen'⟩ := h.alike.seen staged x.1.repository x'.1.repository
  have seen' (σ : Renaming) (hσ : tw.Renames k σ) := (same σ hσ).1 ▸ seen' σ hσ
  generalize hv : (tw.first.transaction x).shown uri s = v at seen seen'
  have kind : v.kind = s.kind := by
    rw [← hv]
    rfl
  have token : s.token = v.token := by
    rw [← hv]
    rfl
  rw [token]
  obtain ⟨ρ, hρ⟩ := h.exists_renames
  have proper' : p'.isEmpty = false := by rw [(same ρ hρ).2, Patch.isEmpty_rename, proper]
  have renamed (σ : Renaming) (hσ : tw.Renames k σ) : v.rename ρ = v.rename σ :=
    Option.some.inj ((seen' ρ hρ).symm.trans (seen' σ hσ))
  obtain ⟨made, after⟩ := Site.call_eq (s := tw.first) (x := x)
    (Transaction.perform_patch h.alike.unfinished proper seen)
  obtain ⟨made', after'⟩ := Site.call_eq (s := tw.second) (x := x')
    (Transaction.perform_patch h.alike.unfinished' proper' (seen' ρ hρ))
  have second : tw.second.call (.patch uri' p' (v.rename ρ).token) x' =
    tw.second.call (.patch uri' p' v.token) x' := rfl
  rw [second] at made' after'
  refine ⟨⟨⟨List.Subset.refl _, List.Subset.refl _⟩, ⟨h.first.call _, h.second.call _, ?_⟩,
    fun σ hσ => ?_, fun u held => ?_⟩, by rw [made]⟩
  · rw [after, after']
    exact h.alike.amend same staged kind renamed ⟨ρ, hρ⟩
  · rw [made, made']
    rfl
  · rw [made] at held
    rw [after, Transaction.get?_staged_amend]
    split
    · rfl
    · exact held.elim id fun new => nomatch new

end Relink

/-! ## The end of both sessions -/

/-- Where the first session has staged something, there is something in its repository, or there is
nothing, and so it is with the second, up to renaming. -/
def Leaves (tw : Twins) (k : Pairing) (t : Transaction) (committed : Bool) (r r' : Repository) :
    Prop :=
  ∀ uri, (t.staged.get? uri).isSome = true → (r.get? uri).isSome = committed ∧
    ∀ ρ, tw.Renames k ρ → r'.get? (ρ uri) = (r.get? uri).map (Stored.rename ρ)

/-- **A commit of both sessions goes alike**: it meets no conflict and leaves what was staged. -/
theorem Level.commit (h : tw.Level k x x') :
    (tw.first.call .commit x).1 = .ok .done ∧ (tw.second.call .commit x').1 = .ok .done ∧
      tw.Leaves k (tw.first.transaction x) true (tw.first.call .commit x).2.1.repository
        (tw.second.call .commit x').2.1.repository := by
  have agreed {t : Transaction} (unpatched : t.baseVersions = Table.empty) (r : Repository) :
      t.conflict? r = none :=
    Transaction.conflict?_eq_none_iff.mpr fun _ _ noted => by
      rw [unpatched] at noted
      cases noted
  obtain ⟨made, -⟩ := Site.call_eq (s := tw.first) (x := x)
    (Transaction.perform_commit h.alike.unfinished (agreed h.alike.unpatched _))
  obtain ⟨made', -⟩ := Site.call_eq (s := tw.second) (x := x')
    (Transaction.perform_commit h.alike.unfinished' (agreed h.alike.unpatched' _))
  rw [made, made']
  refine ⟨rfl, rfl, fun uri held => ?_⟩
  obtain ⟨s, staged⟩ := Option.isSome_iff_exists.mp held
  have left : ((tw.first.transaction x).merge x.1.repository).get? uri =
      some (s.containAll uri (tw.first.transaction x).contained) := by
    rw [Transaction.get?_merge, staged]
    rfl
  refine ⟨(congrArg Option.isSome left).trans rfl, fun ρ hρ => ?_⟩
  refine ((tw.second.transaction x').get?_merge _ (ρ uri)).trans ?_
  refine Eq.trans ?_ (congrArg (Option.map (Stored.rename ρ)) left).symm
  rw [h.alike.staged ρ hρ uri, staged, h.alike.contained ρ hρ]
  exact congrArg some (Stored.containAll_rename ρ uri _ s)

/-- **A rollback of both sessions goes alike**: it leaves nothing of what was staged. -/
theorem Level.rollback (h : tw.Level k x x') :
    (tw.first.call .rollback x).1 = .ok .done ∧ (tw.second.call .rollback x').1 = .ok .done ∧
      tw.Leaves k (tw.first.transaction x) false (tw.first.call .rollback x).2.1.repository
        (tw.second.call .rollback x').2.1.repository := by
  obtain ⟨made, -⟩ := Site.call_eq (s := tw.first) (x := x)
    (Transaction.perform_rollback h.alike.unfinished)
  obtain ⟨made', -⟩ := Site.call_eq (s := tw.second) (x := x')
    (Transaction.perform_rollback h.alike.unfinished')
  rw [made, made']
  refine ⟨rfl, rfl, fun uri held => ?_⟩
  -- what a session has created is not committed
  have missing : x.1.repository.get? uri = none := by
    refine (h.first.ready.workspace.coherent.fits tw.first.name).created uri ⟨held, ?_⟩
    exact congrArg (·.get? uri) h.alike.unpatched
  refine ⟨congrArg Option.isSome missing, fun ρ hρ => ?_⟩
  refine Eq.trans ?_ (congrArg (Option.map (Stored.rename ρ)) missing).symm
  refine (h.second.ready.workspace.coherent.fits tw.second.name).created (ρ uri) ⟨?_, ?_⟩
  · have moved := h.alike.staged ρ hρ uri
    rw [Site.transaction] at moved
    rw [moved, Option.isSome_map]
    exact held
  · exact congrArg (·.get? (ρ uri)) h.alike.unpatched'

end Twins

end LinkedDeposit
