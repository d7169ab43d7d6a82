import Bracket.Proofs.Double.Rounding
import Bracket.Proofs.Evaluation.Reading
import Bracket.Proofs.Lowering.Hygiene
import Bracket.Proofs.Lowering.Regions
import Bracket.Proofs.Tree.Binding

/-!
# Bindings by positions

A language that cannot take tuples apart binds the names of a pattern by one declaration each,
which reads its component through positions.  Every declaration reads the whole value again
from its source, when other names of the pattern are bound already.

The main statement is that this comes to the same as matching the pattern, as long as no name
of the pattern occurs free in the source and all positions are exact, and that lowering always
meets the first of these conditions.
-/

namespace Bracket

variable {α : Type} {m : Meaning α} {base : UInt64}

/-- Up to `2 ^ 53` a position leads to the element that it counts. -/
theorem Meaning.elementAt_ofNat
    {i : Nat} (vs : List (Component α)) (hexact : i + m.firstIndex ≤ Nat.pow 2 53) :
    m.elementAt vs (Double.ofNat (i + m.firstIndex)) = vs[i]? := by
  have hfits : i + m.firstIndex < Nat.pow 2 64 := Nat.lt_of_le_of_lt hexact (by decide)
  have hsize := Double.wholeSize_ofNat hexact
  rw [elementAt, Double.isWhole_ofNat hexact, Double.negative_ofNat hfits, hsize]
  simp

namespace Pattern

/-- All positions in tuples of the pattern are exact. -/
def Addressable (base : UInt64) (p : Pattern) : Prop :=
  ∀ path slots, p.part? path = some (.tuple slots) → base.toNat + slots.length ≤ Nat.pow 2 53

theorem addressable_name
    {x : String} : (name x).Addressable base := by
  intro path slots hslots
  cases path with
  | nil => exact nomatch hslots
  | cons i path => exact nomatch hslots

theorem addressable_tuple
    {slots : List Pattern} :
    (tuple slots).Addressable base ↔
      base.toNat + slots.length ≤ Nat.pow 2 53 ∧ ∀ p ∈ slots, p.Addressable base := by
  let exact (q : Pattern) : Prop :=
    ∀ slots, q = .tuple slots → base.toNat + slots.length ≤ Nat.pow 2 53
  have hparts : (∀ path q, (tuple slots).part? path = some q → exact q) ↔
      exact (.tuple slots) ∧ ∀ p ∈ slots, ∀ path q, p.part? path = some q → exact q :=
    forall_part_tuple
  have haddressable (p : Pattern) :
      p.Addressable base ↔ ∀ path q, p.part? path = some q → exact q := by
    constructor
    · rintro h path q hq slots rfl
      exact h path slots hq
    · intro h path slots hslots
      exact h path _ hslots slots rfl
  rw [haddressable, hparts]
  refine and_congr ⟨fun h => h slots rfl, ?_⟩ ?_
  · rintro h _ ⟨⟩
    exact h
  · exact forall₂_congr fun p _ => (haddressable p).symm

/-- An element that is read at its position. -/
theorem value?_index
    {source : Expr} {vars : Variables α} {vs : List (Component α)} {i : Nat}
    (hfirst : m.firstIndex = base.toNat) (hexact : i + base.toNat ≤ Nat.pow 2 53)
    (hsource : source.value? m vars = some (.sequence vs)) :
    (Expr.index source (.number (Double.ofNat (UInt64.ofNat i + base).toNat))).value? m vars =
      vs[i]? := by
  have hposition : (UInt64.ofNat i + base).toNat = i + m.firstIndex := by
    rw [hfirst, UInt64.toNat_add, UInt64.toNat_ofNat']
    simp only [Nat.pow_eq] at hexact
    omega
  rw [hposition, Expr.index, Expr.number, Expr.value?, hsource, Expr.value?]
  simp only [Option.bind_eq_bind, Option.bind_some, Meaning.memberOf, m.number?_literal]
  exact Meaning.elementAt_ofNat vs (hfirst ▸ hexact)

mutual

/-- Declarations by positions bind what matching gives. -/
theorem bindings?_indexedBindings
    (hfirst : m.firstIndex = base.toNat) :
    (p : Pattern) → {source : Expr} → {vars : Variables α} → {v : Component α} →
      {bs : Bindings α} → p.Addressable base → (∀ x ∈ p.names, x ∉ source.free) →
      source.value? m vars = some v → p.components? v = some bs →
      Stmt.bindings? m vars (p.indexedBindings base source) = some bs
  | .name x, source, vars, v, bs, _, _, hsource, hmatch => by
      rw [components?] at hmatch
      cases hmatch
      rw [indexedBindings, Stmt.letVar, Stmt.bindings?, hsource]
      rfl
  | .tuple slots, source, vars, v, bs, haddress, hfresh, hsource, hmatch => by
      obtain ⟨vs, rfl, hslots⟩ := components?_tuple_eq_some.mp hmatch
      obtain ⟨hlength, hparts⟩ := addressable_tuple.mp haddress
      rw [names] at hfresh
      rw [indexedBindings]
      exact bindings?_indexedSlots hfirst slots hparts (by omega) hfresh hsource hslots

theorem bindings?_indexedSlots
    (hfirst : m.firstIndex = base.toNat) :
    (ps : List Pattern) → {source : Expr} → {vars : Variables α} → {vs : List (Component α)} →
      {i : Nat} → {bs : Bindings α} → (∀ p ∈ ps, p.Addressable base) →
      i + ps.length + base.toNat ≤ Nat.pow 2 53 → (∀ x ∈ namesList ps, x ∉ source.free) →
      source.value? m vars = some (.sequence vs) → componentsList? ps (vs.drop i) = some bs →
      Stmt.bindings? m vars (indexedSlots base source i ps) = some bs
  | [], source, vars, vs, i, bs, _, _, _, _, hmatch => by
      rw [componentsList?] at hmatch
      cases hmatch
      rw [indexedSlots, Stmt.bindings?]
  | p :: ps, source, vars, vs, i, bs, haddress, hlength, hfresh, hsource, hmatch => by
      obtain ⟨v, rest, first, others, hdrop, hfirstSlot, hothers, rfl⟩ :=
        componentsList?_cons_eq_some.mp hmatch
      rw [List.length_cons] at hlength
      rw [namesList, List.forall_mem_append] at hfresh
      obtain ⟨haddressFirst, haddressRest⟩ := List.forall_mem_cons.mp haddress
      have helement : vs[i]? = some v := by
        rw [← List.head?_drop, hdrop, List.head?_cons]
      have hrest : vs.drop (i + 1) = rest := by
        rw [← List.tail_drop, hdrop, List.tail_cons]
      have hslot := value?_index hfirst (by omega : i + base.toNat ≤ Nat.pow 2 53) hsource
      rw [helement] at hslot
      have hdeclared : ∀ x ∈ first.map Prod.fst, x ∉ source.free := by
        rw [map_fst_components p hfirstSlot]
        exact hfresh.1
      -- The names of the first slot are bound when the source is read for the other slots.
      have hagain : source.value? m (vars.bind first) = some (.sequence vs) := by
        rw [Expr.value?_bind vars hdeclared, hsource]
      rw [indexedSlots]
      have hbound : Stmt.bindings? m vars (p.indexedBindings base (.index source (.number
          (Double.ofNat (UInt64.ofNat i + base).toNat)))) = some first := by
        refine bindings?_indexedBindings hfirst p haddressFirst ?_ hslot hfirstSlot
        simpa [Expr.index, Expr.free, Expr.number] using hfresh.1
      refine Stmt.bindings?_append hbound ?_
      exact bindings?_indexedSlots hfirst ps haddressRest (by omega) hfresh.2 hagain
        (hrest ▸ hothers)

end

end Pattern

/-! ## Bindings in lowered code -/

theorem Context.nodup_of_checkBinding
    {c : Context} {item : Item} {p : Pattern} (hcheck : c.checkBinding item = .ok ())
    (hbinding : item.binding = some p) : p.names.Nodup := by
  cases hresolve : item.resolve with
  | error flaw =>
      rw [checkBinding, hresolve] at hcheck
      cases hcheck
  | ok b =>
      obtain ⟨⟨hemittable, -⟩, -⟩ := (Item.resolve_eq_ok_iff hbinding b).mp hresolve
      exact p.nodup_names_iff.mpr hemittable.distinct

/-- Names that lowering accepts in a binding do not occur in the generated name of a value. -/
theorem Context.not_free_of_checkBinding
    {c : Context} {item : Item} {p : Pattern} (hstyle : c.conventions.expansion ≠ .native)
    (hcheck : c.checkBinding item = .ok ()) (hbinding : item.binding = some p) (n : Nat) :
    ∀ x ∈ p.names, x ∉ (Expr.ident (c.temp .value n)).free := by
  intro x hx hfree
  have hbound : x ∈ item.boundNames := by rwa [Item.boundNames, hbinding]
  have hreserved := not_isReserved_of_checkBinding hstyle hcheck hbound
  rw [Expr.free, List.mem_singleton] at hfree
  exact ne_temp_of_not_isReserved hreserved .value n hfree

/-- Declarations by positions agree with matching: where no name of a pattern occurs free in
the source and the pattern matches its value, they declare the names of the pattern from left
to right, each with the component that matching gives it.  In lowered code the guarded region
of a resource begins with exactly these declarations of its own pattern, or with the
destructuring that the language has in their place; the source is the generated name of the
resource's own entry value, which is none of the names of the pattern. -/
theorem Pattern.indexedBindings_agree_with_matching :
    (∀ {α : Type} (m : Meaning α) (base : UInt64) (p : Pattern) (source : Expr)
        (vars : Variables α) (v : Component α) (bs : Bindings α),
      p.names.Nodup → (∀ x ∈ p.names, x ∉ source.free) → p.Addressable base →
      m.firstIndex = base.toNat → source.value? m vars = some v → p.components? v = some bs →
      Stmt.bindings? m vars (p.indexedBindings base source) = some bs ∧
        bs.map Prod.fst = p.names ∧ ∀ x u, (x, u) ∈ bs → vars.bind bs x = some u) ∧
    ∀ (c : Context) (inAsync : Bool) (program code : Program) (k : Nat) (item : Item)
        (p : Pattern),
      c.conventions.expansion ≠ .native → program.lower c inAsync = .ok code →
      program.resources[k]? = some item → item.binding = some p →
      let source := Expr.ident (c.temp .value k)
      let declarations :=
        if c.conventions.nativeUnpacking && p.isTuple then [.destructure p source]
        else p.indexedBindings c.conventions.indexBase source
      (∃ isAsync rest, .stmt (c.region isAsync k (declarations ++ rest)) ∈ code.nodes) ∧
        p.names.Nodup ∧ ∀ x ∈ p.names, x ∉ source.free := by
  constructor
  · intro α m base p source vars v bs hdistinct hfresh haddress hfirst hsource hmatch
    have hnames := p.map_fst_components hmatch
    refine ⟨p.bindings?_indexedBindings hfirst haddress hfresh hsource hmatch, hnames, ?_⟩
    intro x u hu
    exact vars.bind_of_mem (hnames ▸ hdistinct) hu
  · intro c inAsync program code k item p hstyle hlower hitem hbinding source declarations
    have hplaces := Program.places_of_lower hstyle hlower
    have hcheck := hplaces.checked item (List.mem_of_getElem? hitem)
    have hentry := hplaces.entry k item p hitem hbinding
    rw [Nat.zero_add] at hentry
    exact ⟨hentry, Context.nodup_of_checkBinding hcheck hbinding,
      Context.not_free_of_checkBinding hstyle hcheck hbinding k⟩

/-- Literals are values, and positions count from one. -/
def Meaning.sample : Meaning Literal where
  literal l := l
  number?
    | .number d => some d
    | _ => none
  number?_literal _ := rfl
  truthy _ := true
  unary _ _ := none
  binary _ _ _ := none
  apply _ _ := none
  invoke _ _ _ := none
  record _ := .sequence []
  closure _ _ := .sequence []
  member _ _ := none
  firstIndex := 1

/-- A pair whose second component is a pair. -/
def Pattern.nestedPair : Pattern := .tuple [.name "a", .tuple [.name "b", .name "c"]]

/-- The nested pair is bound from a longer sequence, and by the second resource of a
statement. -/
theorem Pattern.indexedBindings_agree_with_matching_of_nestedPair :
    (let leaf (s : String) : Component Literal := .atom (.string s)
     let value := .sequence [leaf "first", .sequence [leaf "second", leaf "third", leaf "last"]]
     Stmt.bindings? Meaning.sample (fun x => if x = "v" then some value else none)
         (nestedPair.indexedBindings 1 (.ident "v")) =
       some [("a", leaf "first"), ("b", leaf "second"), ("c", leaf "third")]) ∧
    let items : List Item := [.new (.ident "lock"), .bind (.new (.ident "pair")) nestedPair]
    ∃ code isAsync rest,
      Program.lower ⟨.lua, "__"⟩ false ⟨[.holding ⟨items, [], false⟩]⟩ = .ok code ∧
      .stmt (Context.region ⟨.lua, "__"⟩ isAsync 1
        (nestedPair.indexedBindings 1 (.ident "__value1") ++ rest)) ∈ code.nodes := by
  obtain ⟨hevaluates, hlowers⟩ := Pattern.indexedBindings_agree_with_matching
  constructor
  · intro leaf value
    have haddress : nestedPair.Addressable 1 := by
      simp [nestedPair, addressable_tuple, addressable_name]
    exact (hevaluates Meaning.sample 1 nestedPair (.ident "v") _ value _ (by decide) (by decide)
      haddress rfl rfl rfl).1
  · intro items
    obtain ⟨code, hcode⟩ : ∃ code, Program.lower ⟨.lua, "__"⟩ false
        ⟨[.holding ⟨items, [], false⟩]⟩ = .ok code := ⟨_, rfl⟩
    obtain ⟨⟨isAsync, rest, hregion⟩, -⟩ :=
      hlowers _ false _ code 1 _ nestedPair (by decide) hcode rfl rfl
    exact ⟨code, isAsync, rest, hcode, hregion⟩

end Bracket
