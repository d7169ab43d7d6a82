import Mathlib.Data.List.Nodup
import Bracket.Lowering.Basic

/-!
# Bindings that can be written

Which bindings are accepted is said through paths.  A path leads through the slots of
nested tuples to a part of a pattern, so that "at any depth" means "at any path" and "from
left to right" is the order of the paths.

The main statement is that resolution accepts exactly the bindings that can be written:
no tuple is empty, all names are identifiers, no name stands at two paths, and the slots fit
the number of values, if it is known.  It yields the pattern itself and its names in the
order of their paths.
-/

namespace Bracket

namespace Pattern

/-- The part of a pattern at a path of slot positions. -/
def part? : List Nat → Pattern → Option Pattern
  | [], p => some p
  | i :: path, .tuple slots => slots[i]?.bind (part? path)
  | _ :: _, .name _ => none

/-- A pattern that can be written. -/
structure Emittable (p : Pattern) : Prop where
  nonempty : ∀ path, p.part? path ≠ some (.tuple [])
  identifiers : ∀ path x, p.part? path = some (.name x) → Text.isIdentifier x = true
  distinct : ∀ path path' x,
    p.part? path = some (.name x) → p.part? path' = some (.name x) → path = path'

/-- The pattern can take the values of an entry, whose number may be known. -/
def Takes (p : Pattern) (arity : Option UInt64) : Prop :=
  arity ≠ some 0 ∧ ∀ n slots, arity = some n → p = .tuple slots → slots.length = n.toNat

/-- The names of a pattern in the order of the paths at which they stand. -/
def NamesInOrder (p : Pattern) (names : List String) : Prop :=
  ∃ leaves : List (List Nat × String),
    (leaves.map Prod.fst).Pairwise (List.Lex (· < ·)) ∧
    (∀ path x, (path, x) ∈ leaves ↔ p.part? path = some (.name x)) ∧
    leaves.map Prod.snd = names

/-! ## Parts -/

/-- A property of all parts of a tuple is one of the tuple and of all parts of its slots. -/
theorem forall_part_tuple
    {P : Pattern → Prop} {slots : List Pattern} :
    (∀ path q, (tuple slots).part? path = some q → P q) ↔
      P (.tuple slots) ∧ ∀ p ∈ slots, ∀ path q, p.part? path = some q → P q := by
  constructor
  · intro h
    refine ⟨h [] _ rfl, fun p hp path q hq => ?_⟩
    obtain ⟨i, hi⟩ := List.getElem?_of_mem hp
    refine h (i :: path) q ?_
    rw [part?, hi]
    exact hq
  · rintro ⟨htuple, hslots⟩ path q hq
    cases path with
    | nil =>
        cases hq
        exact htuple
    | cons i path =>
        rw [part?] at hq
        obtain ⟨p, hp, hq⟩ := Option.bind_eq_some_iff.mp hq
        exact hslots p (List.mem_of_getElem? hp) path q hq

theorem forall_part_name
    {P : Pattern → Prop} {x : String} :
    (∀ path q, (name x).part? path = some q → P q) ↔ P (.name x) := by
  constructor
  · exact fun h => h [] _ rfl
  · intro h path q hq
    cases path with
    | nil =>
        cases hq
        exact h
    | cons i path => exact nomatch hq

/-- The pattern can be written as far as it is seen from outside. -/
def Sound : Pattern → Prop
  | .name x => Text.isIdentifier x = true
  | .tuple slots => slots ≠ []

mutual

/-- No flaw is found exactly if all parts are sound. -/
theorem flaw?_eq_none_iff :
    (p : Pattern) → (p.flaw? = none ↔ ∀ path q, p.part? path = some q → q.Sound)
  | .name x => by
      rw [forall_part_name, flaw?, Sound]
      split <;> simp_all
  | .tuple [] => by
      rw [forall_part_tuple]
      simp [flaw?, Sound]
  | .tuple (p :: ps) => by
      rw [forall_part_tuple, flaw?, flawList?_eq_none_iff (p :: ps)]
      · simp [Sound]
      · exact fun h => nomatch h

theorem flawList?_eq_none_iff :
    (ps : List Pattern) →
      (flawList? ps = none ↔ ∀ p ∈ ps, ∀ path q, p.part? path = some q → q.Sound)
  | [] => by simp [flawList?]
  | p :: ps => by
      have hp := flaw?_eq_none_iff p
      have hps := flawList?_eq_none_iff ps
      rw [flawList?, List.forall_mem_cons, ← hp, ← hps]
      cases p.flaw? <;> simp

end

theorem forall_sound_iff
    {p : Pattern} :
    (∀ path q, p.part? path = some q → q.Sound) ↔
      (∀ path, p.part? path ≠ some (.tuple [])) ∧
        ∀ path x, p.part? path = some (.name x) → Text.isIdentifier x = true := by
  constructor
  · intro h
    exact ⟨fun path hpath => h path _ hpath rfl, fun path x hpath => h path _ hpath⟩
  · rintro ⟨hnonempty, hidentifiers⟩ path q hq
    cases q with
    | name x => exact hidentifiers path x hq
    | tuple slots =>
        rintro rfl
        exact hnonempty path hq

/-! ## Names by their paths -/

mutual

/-- The names of a pattern with their paths. -/
def leaves : Pattern → List (List Nat × String)
  | .name x => [([], x)]
  | .tuple slots => leavesFrom 0 slots

/-- The names of the slots from position `i` on with their paths. -/
def leavesFrom (i : Nat) : List Pattern → List (List Nat × String)
  | [] => []
  | p :: ps => p.leaves.map (fun leaf => (i :: leaf.1, leaf.2)) ++ leavesFrom (i + 1) ps

end

mutual

theorem map_snd_leaves : (p : Pattern) → p.leaves.map Prod.snd = p.names
  | .name x => rfl
  | .tuple slots => by
      rw [leaves, names, map_snd_leavesFrom slots 0]

theorem map_snd_leavesFrom :
    (ps : List Pattern) → (i : Nat) → (leavesFrom i ps).map Prod.snd = namesList ps
  | [], i => rfl
  | p :: ps, i => by
      rw [leavesFrom, namesList, List.map_append, List.map_map, map_snd_leavesFrom ps (i + 1),
        ← map_snd_leaves p]
      rfl

end

mutual

theorem mem_leaves
    {x : String} :
    (p : Pattern) → (path : List Nat) →
      ((path, x) ∈ p.leaves ↔ p.part? path = some (.name x))
  | .name y, [] => by simp [leaves, part?, eq_comm]
  | .name y, i :: path => by simp [leaves, part?]
  | .tuple slots, path => by
      rw [leaves, mem_leavesFrom slots 0 path]
      cases path with
      | nil => simp [part?]
      | cons i path => simp [part?, Option.bind_eq_some_iff]

theorem mem_leavesFrom
    {x : String} :
    (ps : List Pattern) → (i : Nat) → (path : List Nat) →
      ((path, x) ∈ leavesFrom i ps ↔
        ∃ j rest p, path = (i + j) :: rest ∧ ps[j]? = some p ∧ p.part? rest = some (.name x))
  | [], i, path => by simp [leavesFrom]
  | p :: ps, i, path => by
      rw [leavesFrom, List.mem_append, mem_leavesFrom ps (i + 1) path]
      constructor
      · rintro (hleaf | ⟨j, rest, q, rfl, hq, hx⟩)
        · obtain ⟨⟨rest, y⟩, hrest, heq⟩ := List.mem_map.mp hleaf
          cases heq
          exact ⟨0, rest, p, rfl, rfl, (mem_leaves p rest).mp hrest⟩
        · exact ⟨j + 1, rest, q, by rw [Nat.add_right_comm]; rfl, hq, hx⟩
      · rintro ⟨j, rest, q, rfl, hq, hx⟩
        cases j with
        | zero =>
            cases hq
            exact .inl (List.mem_map.mpr ⟨(rest, x), (mem_leaves p rest).mpr hx, rfl⟩)
        | succ j => exact .inr ⟨j, rest, q, by rw [Nat.add_right_comm]; rfl, hq, hx⟩

end

mutual

/-- Names from left to right stand at ascending paths. -/
theorem pairwise_leaves :
    (p : Pattern) → (p.leaves.map Prod.fst).Pairwise (List.Lex (· < ·))
  | .name x => List.pairwise_singleton _ _
  | .tuple slots => by
      rw [leaves]
      exact pairwise_leavesFrom slots 0

theorem pairwise_leavesFrom :
    (ps : List Pattern) → (i : Nat) →
      ((leavesFrom i ps).map Prod.fst).Pairwise (List.Lex (· < ·))
  | [], i => List.Pairwise.nil
  | p :: ps, i => by
      have hfirst := pairwise_leaves p
      have hrest := pairwise_leavesFrom ps (i + 1)
      rw [leavesFrom, List.map_append, List.map_map, List.pairwise_append]
      refine ⟨?_, hrest, ?_⟩
      · rw [List.pairwise_map] at hfirst ⊢
        exact hfirst.imp List.Lex.cons
      · -- A path into the first slot comes before all paths into later ones.
        intro path hpath path' hpath'
        obtain ⟨leaf, -, rfl⟩ := List.mem_map.mp hpath
        obtain ⟨⟨path', x⟩, hleaf, rfl⟩ := List.mem_map.mp hpath'
        obtain ⟨j, rest, q, rfl, -, -⟩ := (mem_leavesFrom ps (i + 1) path').mp hleaf
        exact List.Lex.rel (by omega)

end

theorem namesInOrder_names (p : Pattern) : p.NamesInOrder p.names :=
  ⟨p.leaves, pairwise_leaves p, fun path _ => mem_leaves p path, map_snd_leaves p⟩

/-- Names differ exactly if no name stands at two paths. -/
theorem nodup_names_iff
    (p : Pattern) :
    p.names.Nodup ↔
      ∀ path path' x,
        p.part? path = some (.name x) → p.part? path' = some (.name x) → path = path' := by
  have hpaths : (p.leaves.map Prod.fst).Nodup := by
    refine (pairwise_leaves p).imp ?_
    rintro path _ hlex rfl
    exact List.lex_irrefl Nat.lt_irrefl path hlex
  rw [← map_snd_leaves]
  constructor
  · intro hnodup path path' x hpath hpath'
    have hleaf := (mem_leaves p path).mpr hpath
    have hleaf' := (mem_leaves p path').mpr hpath'
    exact congrArg Prod.fst (List.inj_on_of_nodup_map hnodup hleaf hleaf' rfl)
  · intro hdistinct
    refine (List.Nodup.of_map _ hpaths).map_on ?_
    rintro ⟨path, x⟩ hleaf ⟨path', x'⟩ hleaf' rfl
    have hpath := (mem_leaves p path).mp hleaf
    have hpath' := (mem_leaves p path').mp hleaf'
    rw [hdistinct path path' x hpath hpath']

/-- No repeated name is found exactly if the names differ from each other and from those
that were seen. -/
theorem firstRepeat?_eq_none_iff
    (seen names : List String) :
    firstRepeat? seen names = none ↔ names.Nodup ∧ ∀ x ∈ names, x ∉ seen := by
  induction names generalizing seen with
  | nil => simp [firstRepeat?]
  | cons x names ih =>
      rw [firstRepeat?, List.nodup_cons, List.forall_mem_cons]
      by_cases hx : x ∈ seen
      · simp [hx]
      · rw [if_neg hx, ih]
        simp only [List.mem_cons, not_or]
        constructor
        · rintro ⟨hnodup, hseen⟩
          exact ⟨⟨fun hmem => (hseen x hmem).1 rfl, hnodup⟩, hx, fun y hy => (hseen y hy).2⟩
        · rintro ⟨⟨hmem, hnodup⟩, -, hseen⟩
          exact ⟨hnodup, fun y hy => ⟨fun heq => hmem (heq ▸ hy), hseen y hy⟩⟩

/-! ## Resolution -/

theorem emittable_iff
    (p : Pattern) : p.Emittable ↔ p.flaw? = none ∧ firstRepeat? [] p.names = none := by
  rw [flaw?_eq_none_iff, forall_sound_iff, firstRepeat?_eq_none_iff, nodup_names_iff]
  constructor
  · rintro ⟨hnonempty, hidentifiers, hdistinct⟩
    exact ⟨⟨hnonempty, hidentifiers⟩, hdistinct, by simp⟩
  · rintro ⟨⟨hnonempty, hidentifiers⟩, hdistinct, -⟩
    exact ⟨hnonempty, hidentifiers, hdistinct⟩

theorem takes_iff
    (p : Pattern) (arity : Option UInt64) :
    p.Takes arity ↔ arity.bind p.arityFlaw? = none := by
  cases arity with
  | none => simp [Takes]
  | some n =>
      unfold Takes arityFlaw?
      rw [Option.bind_some]
      by_cases hn : n = 0
      · simp [hn]
      · cases p with
        | name x => simp [hn]
        | tuple slots => simp [hn]

end Pattern

namespace Item

/-- Resolution of a binding succeeds exactly if it can be written. -/
theorem resolve_eq_ok_iff
    {item : Item} {p : Pattern} (hbinding : item.binding = some p) (b : ResolvedBinding) :
    item.resolve = .ok b ↔
      (p.Emittable ∧ p.Takes item.entryArity) ∧ b = ⟨some p, p.names⟩ := by
  rw [p.emittable_iff, p.takes_iff]
  simp only [resolve, hbinding]
  cases harity : item.entryArity.bind p.arityFlaw? with
  | some flaw => simp
  | none =>
      cases hflaw : p.flaw? with
      | some flaw => simp
      | none =>
          cases hrepeat : Pattern.firstRepeat? [] p.names with
          | some x => simp
          | none => simp [eq_comm]

theorem resolve_of_not_bound
    {item : Item} (hbinding : item.binding = none) : item.resolve = .ok ⟨none, []⟩ := by
  rw [resolve, hbinding]

/-- Resolution accepts exactly a missing binding and one that can be written and takes the
values of the entry; whatever else is refused is refused as malformed; and it yields the
pattern of the resource and its names from left to right, without repetition. -/
theorem resolve_accepts_emittable
    (item : Item) :
    ((∃ b, item.resolve = .ok b) ↔
        item.binding = none ∨
          ∃ p, item.binding = some p ∧ p.Emittable ∧ p.Takes item.entryArity) ∧
      (∀ flaw, item.resolve = .error flaw →
        ∀ c : Context, c.checkBinding item = .error (.malformedBinding flaw)) ∧
      ∀ b, item.resolve = .ok b →
        b.pattern = item.binding ∧ b.names.Nodup ∧
          (item.binding = none → b.names = []) ∧
          ∀ p, item.binding = some p → p.NamesInOrder b.names := by
  refine ⟨?_, ?_, ?_⟩
  · cases hbinding : item.binding with
    | none => simp [resolve_of_not_bound hbinding]
    | some p => simp [resolve_eq_ok_iff hbinding]
  · intro flaw hflaw c
    rw [Context.checkBinding, hflaw]
  · intro b hb
    cases hbinding : item.binding with
    | none =>
        rw [resolve_of_not_bound hbinding] at hb
        cases hb
        simp
    | some p =>
        obtain ⟨⟨hemittable, -⟩, rfl⟩ := (resolve_eq_ok_iff hbinding b).mp hb
        have hnodup : p.names.Nodup := p.nodup_names_iff.mpr hemittable.distinct
        refine ⟨rfl, hnodup, by simp, ?_⟩
        rintro p' hp'
        cases hp'
        exact p.namesInOrder_names

/-- A nested tuple that fits two values, and one with a name in two of its tuples. -/
theorem resolve_accepts_emittable_of_nested :
    let nested : Pattern := .tuple [.name "a", .ofNames ["b", "c"]]
    let repeated : Pattern := .tuple [.name "a", .ofNames ["b", "a"]]
    let item : Item := .withEntryArity (.new (.ident "open")) 2
    nested.Emittable ∧ nested.NamesInOrder ["a", "b", "c"] ∧
      Context.checkBinding ⟨.lua, "__"⟩ (item.bind repeated) =
        .error (.malformedBinding (.repeatedName repeated "a")) := by
  intro nested repeated item
  have haccepted : (item.bind nested).resolve = .ok ⟨some nested, ["a", "b", "c"]⟩ := rfl
  obtain ⟨haccepts, -, hyields⟩ := resolve_accepts_emittable (item.bind nested)
  obtain ⟨-, -, -, hnames⟩ := hyields _ haccepted
  refine ⟨?_, hnames nested rfl, ?_⟩
  · rcases haccepts.mp ⟨_, haccepted⟩ with hnone | ⟨p, hp, hemittable, -⟩
    · exact nomatch hnone
    · cases hp
      exact hemittable
  · exact (resolve_accepts_emittable (item.bind repeated)).2.1 _ rfl _

end Item

end Bracket
