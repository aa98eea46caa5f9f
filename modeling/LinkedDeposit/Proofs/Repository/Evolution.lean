import LinkedDeposit.Repository.Transaction

/-!
# How a repository evolves

A committed resource stays, keeps its kind and its content, and its version counts the changes of
its graph, so that a version names one state for good (`Stored.Becomes`). A repository evolves if
each of its resources does and new ones only come to URIs without one (`Repository.Evolves`). This
is an order, so it holds of a whole run once it holds of each step.

Containment only adds statements: what a session sees at a URI, and what a commit leaves there, is
the staged or else the committed resource together with `Repository.containments`.

Results:
* `get?_containAll`: what noting children does to every look-up; `Stored.becomes_containAll`: it is
  an evolution.
* `Transaction.lookup_eq`, `Transaction.get?_merge`: what a session sees and what it commits.
* `Stored.token_injective`: a token names one version.
-/

namespace LinkedDeposit

/-! ## Containment -/

namespace Repository

/-- The statements that a container holds the children noted for it. -/
def containments (uri : String) (children : List (String × String)) : Graph :=
  Graph.ofList ((children.filter (·.1 = uri)).map fun c => containment c.1 c.2)

theorem mem_containments {uri : String} {children : List (String × String)} {t : Triple} :
    t ∈ containments uri children ↔
      ∃ child, (uri, child) ∈ children ∧ t = containment uri child := by
  simp only [containments, Graph.mem_ofList, List.mem_map, List.mem_filter, decide_eq_true_eq]
  constructor
  · rintro ⟨⟨parent, child⟩, ⟨hc, rfl⟩, rfl⟩
    exact ⟨child, hc, rfl⟩
  · rintro ⟨child, hc, rfl⟩
    exact ⟨(uri, child), ⟨hc, rfl⟩, rfl⟩

end Repository

namespace Stored

/-- The resource at a URI after children were noted there, in order. -/
def containAll (uri : String) (children : List (String × String)) (r : Stored) : Stored :=
  (children.filter (·.1 = uri)).foldl
    (fun r c => r.contain (Repository.containment c.1 c.2)) r

theorem graph_contain (r : Stored) (t : Triple) : (r.contain t).graph = r.graph.insert t := by
  unfold contain
  split
  case isTrue h =>
    refine Graph.ext fun u => ?_
    rw [Graph.mem_insert]
    constructor
    · exact .inr
    · rintro (rfl | hu)
      · exact h
      · exact hu
  case isFalse => rfl

theorem containAll_cons (uri : String) (c : String × String) (children : List (String × String))
    (r : Stored) : r.containAll uri (c :: children) =
      (if c.1 = uri then r.contain (Repository.containment c.1 c.2) else r).containAll uri
        children := by
  unfold containAll
  by_cases h : c.1 = uri <;> simp [h]

theorem containAll_of_forall_ne {uri : String} {children : List (String × String)}
    (h : ∀ c ∈ children, c.1 ≠ uri) (r : Stored) : r.containAll uri children = r := by
  have none : children.filter (·.1 = uri) = [] := by simpa using h
  rw [containAll, none, List.foldl_nil]

/-- Noting children adds their statements. -/
theorem graph_containAll (uri : String) (children : List (String × String)) (r : Stored) :
    (r.containAll uri children).graph =
      r.graph.union (Repository.containments uri children) := by
  refine Graph.ext fun t => ?_
  rw [Graph.mem_union, Repository.mem_containments]
  induction children generalizing r with
  | nil => simp [containAll]
  | cons c children ih =>
    rw [containAll_cons, ih]
    by_cases h : c.1 = uri
    · subst h
      rw [if_pos rfl, graph_contain, Graph.mem_insert]
      simp only [List.mem_cons, Prod.ext_iff]
      grind
    · rw [if_neg h]
      grind

end Stored

/-! ## Evolution -/

/-- The second resource is a later state of the first. -/
structure Stored.Becomes (a b : Stored) : Prop where
  kind : b.kind = a.kind
  binary : b.binary = a.binary
  version : a.version ≤ b.version
  /-- A version names one state. -/
  same : a.version = b.version → a = b

namespace Stored.Becomes

theorem refl (a : Stored) : a.Becomes a := ⟨rfl, rfl, Nat.le_refl _, fun _ => rfl⟩

theorem trans {a b c : Stored} (h : a.Becomes b) (k : b.Becomes c) : a.Becomes c where
  kind := k.kind.trans h.kind
  binary := k.binary.trans h.binary
  version := Nat.le_trans h.version k.version
  same e := by
    have hab := h.version
    have hbc := k.version
    rw [h.same (by omega), k.same (by omega)]

/-- A change of the graph that is counted. -/
theorem of_lt {a b : Stored} (hk : b.kind = a.kind) (hb : b.binary = a.binary)
    (hv : a.version < b.version) : a.Becomes b :=
  ⟨hk, hb, Nat.le_of_lt hv, fun e => absurd e (Nat.ne_of_lt hv)⟩

/-- A changed graph has a greater version. -/
theorem version_lt {a b : Stored} (h : a.Becomes b) (hg : a.graph ≠ b.graph) :
    a.version < b.version :=
  Nat.lt_of_le_of_ne h.version fun e => hg (congrArg Stored.graph (h.same e))

end Stored.Becomes

theorem Stored.becomes_contain (r : Stored) (t : Triple) : r.Becomes (r.contain t) := by
  unfold contain
  split
  case isTrue => exact .refl r
  case isFalse => exact .of_lt rfl rfl (Nat.lt_succ_self _)

theorem Stored.becomes_containAll (uri : String) (children : List (String × String))
    (r : Stored) : r.Becomes (r.containAll uri children) := by
  induction children generalizing r with
  | nil => exact .refl r
  | cons c children ih =>
    rw [containAll_cons]
    split
    case isTrue => exact (r.becomes_contain _).trans (ih _)
    case isFalse => exact ih r

namespace Repository

/-- Every resource of the first repository is in the second, in a later state. -/
def Evolves (r q : Repository) : Prop :=
  ∀ uri a, r.get? uri = some a → ∃ b, q.get? uri = some b ∧ a.Becomes b

theorem Evolves.refl (r : Repository) : r.Evolves r := fun _ a ha => ⟨a, ha, .refl a⟩

theorem Evolves.trans {r q p : Repository} (h : r.Evolves q) (k : q.Evolves p) : r.Evolves p := by
  intro uri a ha
  obtain ⟨b, hb, hab⟩ := h uri a ha
  obtain ⟨c, hc, hbc⟩ := k uri b hb
  exact ⟨c, hc, hab.trans hbc⟩

/-- **A version names one state.** A resource with an old version is the old resource. -/
theorem Evolves.eq_of_version {r q : Repository} (h : r.Evolves q) {uri : String} {a b : Stored}
    (ha : r.get? uri = some a) (hb : q.get? uri = some b) (hv : b.version = a.version) :
    b = a := by
  obtain ⟨b', hb', hab⟩ := h uri a ha
  obtain rfl : b = b' := Option.some.inj (hb.symm.trans hb')
  exact (hab.same hv.symm).symm

/-- Children are noted at resources that are there, and nowhere else. -/
theorem get?_containAll (r : Repository) (children : List (String × String)) (uri : String) :
    (containAll r children).get? uri = (r.get? uri).map (Stored.containAll uri children) := by
  induction children generalizing r with
  | nil =>
    change r.get? uri = (r.get? uri).map id
    rw [Option.map_id, id]
  | cons c children ih =>
    obtain ⟨parent, child⟩ := c
    unfold containAll at ih ⊢
    rw [List.foldl_cons, ih]
    by_cases h : parent = uri
    · subst h
      cases hp : r.get? parent with
      | none => simp only [hp, Option.map_none]
      | some stored => simp [hp, Stored.containAll_cons]
    · have elsewhere :
          Stored.containAll uri ((parent, child) :: children) = Stored.containAll uri children :=
        funext fun stored => by rw [Stored.containAll_cons, if_neg h]
      rw [elsewhere]
      cases hp : r.get? parent with
      | none => simp only [hp]
      | some stored => simp only [hp, Table.get?_insert, if_neg (Ne.symm h)]

end Repository

/-! ## What a session sees and commits -/

namespace Transaction

/-- A resource as a session sees it, with the children that it has deposited there. -/
def shown (t : Transaction) (uri : String) (stored : Stored) : Stored :=
  { stored with graph := stored.graph.union (Repository.containments uri t.contained) }

/-- A session sees the staged or else the committed resource. -/
theorem lookup_eq (r : Repository) (t : Transaction) (uri : String) :
    t.lookup r uri = ((t.staged.get? uri).or (r.get? uri)).map (t.shown uri) := by
  have found : ((t.staged.get? uri).orElse fun _ => r.get? uri) =
      (t.staged.get? uri).or (r.get? uri) := by
    cases t.staged.get? uri <;> rfl
  have folded (cs : List (String × String)) (g : Graph) (u : Triple) :
      u ∈ cs.foldl (fun g c => g.insert (Repository.containment c.1 c.2)) g ↔
        u ∈ g ∨ ∃ c ∈ cs, u = Repository.containment c.1 c.2 := by
    induction cs generalizing g with
    | nil => simp
    | cons c cs ih => rw [List.foldl_cons, ih, Graph.mem_insert]; grind
  unfold lookup
  simp only [found]
  congr 1
  funext stored
  unfold shown
  congr 1
  refine Graph.ext fun u => ?_
  rw [folded, Graph.mem_union]
  simp only [Repository.containments, Graph.mem_ofList, List.mem_map, eq_comm]

/-- A resource that a session sees is there, staged or else committed. -/
theorem found_of_lookup {r : Repository} {t : Transaction} {uri : String} {seen : Stored}
    (h : t.lookup r uri = some seen) :
    ∃ found, (t.staged.get? uri).or (r.get? uri) = some found ∧ seen = t.shown uri found := by
  rw [lookup_eq, Option.map_eq_some_iff] at h
  obtain ⟨found, hf, rfl⟩ := h
  exact ⟨found, hf, rfl⟩

/-- What a commit leaves at a URI is the staged or else the committed resource, with the new
children. -/
theorem get?_merge (r : Repository) (t : Transaction) (uri : String) :
    (t.merge r).get? uri =
      ((t.staged.get? uri).or (r.get? uri)).map (Stored.containAll uri t.contained) := by
  rw [merge, Repository.get?_containAll, Table.get?_union]

end Transaction

/-! ## Tokens -/

/-- A number can be read off its digits. -/
theorem eq_of_toString_eq {m n : Nat} (h : toString m = toString n) : m = n := by
  have digits (n : Nat) : (toString n).toList = Nat.toDigits 10 n := Nat.toList_repr
  have read := congrArg (fun s => Nat.ofDigitChars 10 s.toList 0) h
  simpa [digits] using read

/-- **A token names one version.** -/
theorem Stored.token_injective {a b : Stored} (h : a.token = b.token) : a.version = b.version :=
  eq_of_toString_eq h

end LinkedDeposit
