import Mathlib.Data.List.Nodup
import Bracket.Proofs.Evaluation.Basic
import Bracket.Proofs.Target.Numbering
import Bracket.Proofs.Tree.Binding

/-!
# Bindings by unpacking

Lua takes a tuple apart by one declaration for all of its slots.  A slot that is a tuple again
gets a made-up local variable, and the declaration that takes this variable apart follows when
all slots of the outer tuple have their names.

The lines that are written are described as declarations, which can be executed.  The main
statement is that executing them binds the names of the pattern as matching does, that the
initial value is read once, and that made-up variables neither clash nor are read before they
are declared.
-/

namespace Bracket

namespace Lua

open Text (Doc Writing commaSeparated)
open Text.Writing (push Writes)

/-- Where a declaration takes its value from: the initial value of the whole statement, or a
local variable. -/
inductive Source where
  | initial
  | named (x : String)
  deriving DecidableEq

/-- A line that declares local variables. -/
inductive Declaration where
  | keep (name : String) (source : Source)
  | unpack (names : List String) (source : Source)

/-! ## The text of declarations -/

/-- The text of a source, given the one of the initial value. -/
def Source.text (initial : List Char) : Source → List Char
  | .initial => initial
  | .named x => x.toList

namespace Declaration

def text (initial : List Char) : Declaration → List Char
  | .keep x source => ("local " ++ x ++ " = ").toList ++ source.text initial
  | .unpack xs source =>
      ("local " ++ commaSeparated xs ++ " = table.unpack(").toList ++ source.text initial ++ [')']

/-- The text of declarations on new lines with the given number of spaces before them. -/
def textBehind (indentation : Nat) (initial : List Char) (lines : List Declaration) : List Char :=
  lines.flatMap fun line => '\n' :: (List.replicate indentation ' ' ++ line.text initial)

/-- The text of declarations of which the first continues a line. -/
def textOf (indentation : Nat) (initial : List Char) : List Declaration → List Char
  | [] => []
  | line :: lines => line.text initial ++ textBehind indentation initial lines

theorem textBehind_append
    (indentation : Nat) (initial : List Char) (lines lines' : List Declaration) :
    textBehind indentation initial (lines ++ lines') =
      textBehind indentation initial lines ++ textBehind indentation initial lines' :=
  List.flatMap_append

/-! ## Execution of declarations -/

def source : Declaration → Source
  | .keep _ source => source
  | .unpack _ source => source

/-- The variables that a declaration introduces. -/
def names : Declaration → List String
  | .keep x _ => [x]
  | .unpack xs _ => xs

/-- The variables that declarations introduce, in their order. -/
def declared (lines : List Declaration) : List String := lines.flatMap names

theorem declared_append
    (lines lines' : List Declaration) :
    declared (lines ++ lines') = declared lines ++ declared lines' := List.flatMap_append

end Declaration

variable {α : Type}

def Source.value? (initial : Component α) (vars : Variables α) : Source → Option (Component α)
  | .initial => some initial
  | .named x => vars x

namespace Declaration

/-- What a declaration binds.  One that unpacks needs a variable, and an element for each of
its variables. -/
def bindings? (initial : Component α) (vars : Variables α) : Declaration → Option (Bindings α)
  | .keep x source => do
      let v ← source.value? initial vars
      some [(x, v)]
  | .unpack xs source => do
      match ← source.value? initial vars with
      | .sequence vs => if xs = [] ∨ vs.length < xs.length then none else some (xs.zip vs)
      | .atom _ => none

/-- What declarations bind, one after the other. -/
def bindingsList? (initial : Component α) (vars : Variables α) :
    List Declaration → Option (Bindings α)
  | [] => some []
  | line :: lines => do
      let first ← line.bindings? initial vars
      let rest ← bindingsList? initial (vars.bind first) lines
      some (first ++ rest)

theorem bindingsList?_append
    {initial : Component α} {vars : Variables α} {lines lines' : List Declaration}
    {bs bs' : Bindings α} (h : bindingsList? initial vars lines = some bs)
    (h' : bindingsList? initial (vars.bind bs) lines' = some bs') :
    bindingsList? initial vars (lines ++ lines') = some (bs ++ bs') := by
  induction lines generalizing vars bs with
  | nil =>
      rw [bindingsList?] at h
      cases h
      exact h'
  | cons line lines ih =>
      simp only [bindingsList?, Option.bind_eq_bind, Option.bind_eq_some_iff] at h
      obtain ⟨first, hfirst, rest, hrest, h⟩ := h
      cases h
      rw [Variables.bind_append] at h'
      rw [List.cons_append, bindingsList?, hfirst, Option.bind_eq_bind, Option.bind_some,
        ih hrest h', Option.bind_some, List.append_assoc]

end Declaration

/-! ## The declarations of a pattern -/

mutual

/-- The declarations that take a value apart, with numbers as in `destructure`. -/
def declarations (first next : Nat) (source : Source) : Pattern → List Declaration × Nat
  | .name x => ([.keep x source], next)
  | .tuple slots =>
      let rest := nestedDeclarations first next slots
      (.unpack (slotNames first slots) source :: rest.1, rest.2)

/-- The declarations for the nested tuples among the given slots. -/
def nestedDeclarations (first next : Nat) : List Pattern → List Declaration × Nat
  | [] => ([], next)
  | .name _ :: ps => nestedDeclarations first next ps
  | .tuple slots :: ps =>
      let lines := declarations next (next + slots.countP isTuple) (.named (slotName first))
        (.tuple slots)
      let rest := nestedDeclarations (first + 1) lines.2 ps
      (lines.1 ++ rest.1, rest.2)

end

/-- The declarations of a pattern begin with a line. -/
theorem Declaration.textBehind_declarations
    (indentation first next : Nat) (initial : List Char) (source : Source) (p : Pattern) :
    textBehind indentation initial (declarations first next source p).1 =
      '\n' :: (List.replicate indentation ' ' ++
        textOf indentation initial (declarations first next source p).1) := by
  cases p with
  | name x => simp [declarations, textOf, textBehind]
  | tuple slots => simp [declarations, textOf, textBehind]

theorem destructureNested_name
    (d first next : Nat) (x : String) (ps : List Pattern) :
    destructureNested d first next (.name x :: ps) = destructureNested d first next ps := by
  rw [destructureNested]
  rfl

theorem destructureNested_tuple
    (d first next : Nat) (slots ps : List Pattern) :
    destructureNested d first next (.tuple slots :: ps) =
      let doc := destructure d next (next + slots.countP isTuple) [.text (slotName first)]
        (.tuple slots)
      let rest := destructureNested d (first + 1) doc.2 ps
      (.lineBreak d :: doc.1 ++ rest.1, rest.2) := by
  rw [destructureNested]
  rfl

mutual

/-- Printing writes the declarations of a pattern. -/
theorem render_destructure
    (d w : Nat) (initial : List Char) :
    (p : Pattern) → (first next : Nat) → {doc : Doc} → {source : Source} →
      doc.render w = source.text initial →
      (destructure d first next doc p).1.render w =
          Declaration.textOf (d * w) initial (declarations first next source p).1 ∧
        (destructure d first next doc p).2 = (declarations first next source p).2
  | .name x, first, next, doc, source, hdoc => by
      rw [destructure, declarations]
      simp [Declaration.textOf, Declaration.text, Declaration.textBehind, hdoc]
  | .tuple slots, first, next, doc, source, hdoc => by
      obtain ⟨htext, hnext⟩ := render_destructureNested d w initial slots first next
      rw [destructure, declarations]
      refine ⟨?_, hnext⟩
      simp [Declaration.textOf, Declaration.text, hdoc, htext]

theorem render_destructureNested
    (d w : Nat) (initial : List Char) :
    (ps : List Pattern) → (first next : Nat) →
      (destructureNested d first next ps).1.render w =
          Declaration.textBehind (d * w) initial (nestedDeclarations first next ps).1 ∧
        (destructureNested d first next ps).2 = (nestedDeclarations first next ps).2
  | [], first, next => by
      rw [destructureNested, nestedDeclarations]
      exact ⟨rfl, rfl⟩
  | .name x :: ps, first, next => by
      rw [destructureNested_name, nestedDeclarations]
      exact render_destructureNested d w initial ps first next
  | .tuple slots :: ps, first, next => by
      have hslot : Doc.render w [.text (slotName first)] =
          (Source.named (slotName first)).text initial := by simp [Source.text]
      obtain ⟨htext, hnext⟩ := render_destructure d w initial (.tuple slots) next
        (next + slots.countP isTuple) hslot
      obtain ⟨htextRest, hnextRest⟩ := render_destructureNested d w initial ps (first + 1)
        (destructure d next (next + slots.countP isTuple) [.text (slotName first)]
          (.tuple slots)).2
      rw [destructureNested_tuple, nestedDeclarations]
      rw [hnext] at htextRest hnextRest
      dsimp only
      rw [hnext, hnextRest, Declaration.textBehind_append, ← htextRest,
        Declaration.textBehind_declarations, ← htext]
      exact ⟨by simp, rfl⟩

end

/-! ## The variables that are declared -/

theorem slotName_injective : Function.Injective slotName := by
  intro n n' h
  have hlist := congrArg String.toList h
  simp only [slotName, String.toList_append, List.append_cancel_left_eq] at hlist
  simpa using congrArg (fun ds => Nat.ofDigitChars 10 ds 0) hlist

/-- The local variables with `count` numbers from `first` on. -/
def slotRange (first count : Nat) : List String := (List.range' first count).map slotName

theorem slotRange_append
    (first m n : Nat) : slotRange first m ++ slotRange (first + m) n = slotRange first (m + n) := by
  rw [slotRange, slotRange, ← List.map_append, List.range'_append_1]
  rfl

theorem mem_slotRange
    {first count : Nat} {x : String} :
    x ∈ slotRange first count ↔ ∃ n, first ≤ n ∧ n < first + count ∧ slotName n = x := by
  simp only [slotRange, List.mem_map, List.mem_range'_1, and_assoc]

mutual

/-- The declarations of a pattern introduce its names and the variables with the numbers that
they take. -/
theorem declared_declarations
    (source : Source) :
    (p : Pattern) → (first next : Nat) → ∃ count,
      (declarations first next source p).2 = next + count ∧
        (Declaration.declared (declarations first next source p).1).Perm
          (p.names ++ (slotRange first (nestedCount p) ++ slotRange next count))
  | .name x, first, next => by
      rw [declarations]
      exact ⟨0, rfl, .refl _⟩
  | .tuple slots, first, next => by
      obtain ⟨count, hnext, hperm⟩ := declared_nestedDeclarations slots first next
      rw [declarations]
      exact ⟨count, hnext, hperm⟩

theorem declared_nestedDeclarations :
    (ps : List Pattern) → (first next : Nat) → ∃ count,
      (nestedDeclarations first next ps).2 = next + count ∧
        (slotNames first ps ++ Declaration.declared (nestedDeclarations first next ps).1).Perm
          (Pattern.namesList ps ++ (slotRange first (ps.countP isTuple) ++ slotRange next count))
  | [], first, next => by
      rw [nestedDeclarations]
      exact ⟨0, rfl, .refl _⟩
  | .name x :: ps, first, next => by
      obtain ⟨count, hnext, hperm⟩ := declared_nestedDeclarations ps first next
      have hcount : (Pattern.name x :: ps).countP isTuple = ps.countP isTuple :=
        List.countP_cons_of_neg Bool.false_ne_true
      rw [nestedDeclarations, slotNames, hcount]
      exact ⟨count, hnext, hperm.cons x⟩
  | .tuple slots :: ps, first, next => by
      obtain ⟨inner, hnext, hperm⟩ := declared_declarations (.named (slotName first))
        (.tuple slots) next (next + slots.countP isTuple)
      obtain ⟨outer, hnextRest, hpermRest⟩ := declared_nestedDeclarations ps (first + 1)
        (next + (slots.countP isTuple + inner))
      have hcount : (Pattern.tuple slots :: ps).countP isTuple = ps.countP isTuple + 1 :=
        List.countP_cons_of_pos rfl
      have hrange : slotRange first (ps.countP isTuple + 1) =
          slotName first :: slotRange (first + 1) (ps.countP isTuple) := rfl
      rw [nestedDeclarations, slotNames, Pattern.namesList, hcount, hrange]
      dsimp only
      rw [hnext, Nat.add_assoc]
      refine ⟨slots.countP isTuple + inner + outer, by rw [hnextRest, Nat.add_assoc], ?_⟩
      rw [← slotRange_append next, ← slotRange_append next]
      refine List.perm_iff_count.mpr fun x => ?_
      have hslot := hperm.count_eq x
      have hrest := hpermRest.count_eq x
      simp only [Declaration.declared, List.flatMap_append, List.cons_append, List.count_append,
        List.count_cons, nestedCount] at hslot hrest ⊢
      simp only [Nat.add_assoc] at hslot hrest ⊢
      omega

end

theorem nodup_slotRange (first count : Nat) : (slotRange first count).Nodup :=
  List.Nodup.map slotName_injective List.nodup_range'

/-- All variables that the declarations of a pattern introduce are different. -/
theorem nodup_declared
    {p : Pattern} {first next : Nat} (source : Source) (hdistinct : p.names.Nodup)
    (hplain : ∀ x ∈ p.names, ∀ n, x ≠ slotName n) (hnumbers : first + nestedCount p ≤ next) :
    (Declaration.declared (declarations first next source p).1).Nodup := by
  obtain ⟨count, -, hperm⟩ := declared_declarations source p first next
  have hslots : (slotRange first (nestedCount p) ++ slotRange next count).Nodup := by
    refine List.nodup_append.mpr ⟨nodup_slotRange _ _, nodup_slotRange _ _, ?_⟩
    intro x hx y hy hxy
    obtain ⟨n, -, hn, rfl⟩ := mem_slotRange.mp hx
    obtain ⟨m, hm, -, rfl⟩ := mem_slotRange.mp hy
    have heq := slotName_injective hxy
    omega
  refine hperm.nodup_iff.mpr (List.nodup_append.mpr ⟨hdistinct, hslots, ?_⟩)
  intro x hx y hy hxy
  rcases List.mem_append.mp hy with hy | hy
  · obtain ⟨n, -, -, rfl⟩ := mem_slotRange.mp hy
    exact hplain x hx n hxy
  · obtain ⟨n, -, -, rfl⟩ := mem_slotRange.mp hy
    exact hplain x hx n hxy

/-! ## What declarations read -/

namespace Declaration

/-- Every local variable that a declaration reads is known, or introduced before. -/
def ReadsDeclared : List String → List Declaration → Prop
  | _, [] => True
  | known, line :: lines =>
      (∀ x, line.source = .named x → x ∈ known) ∧ ReadsDeclared (known ++ line.names) lines

theorem readsDeclared_append
    {known : List String} {lines lines' : List Declaration} :
    ReadsDeclared known (lines ++ lines') ↔
      ReadsDeclared known lines ∧ ReadsDeclared (known ++ declared lines) lines' := by
  induction lines generalizing known with
  | nil => simp [ReadsDeclared, declared]
  | cons line lines ih => simp [ReadsDeclared, declared, ih, and_assoc]

end Declaration

mutual

theorem readsDeclared_declarations
    {known : List String} :
    (p : Pattern) → (first next : Nat) → {source : Source} →
      (∀ x, source = .named x → x ∈ known) →
      Declaration.ReadsDeclared known (declarations first next source p).1
  | .name x, first, next, source, hsource => by
      rw [declarations]
      exact ⟨hsource, trivial⟩
  | .tuple slots, first, next, source, hsource => by
      rw [declarations]
      exact ⟨hsource, readsDeclared_nestedDeclarations slots first next
        (List.subset_append_right _ _)⟩

theorem readsDeclared_nestedDeclarations
    {known : List String} :
    (ps : List Pattern) → (first next : Nat) → slotNames first ps ⊆ known →
      Declaration.ReadsDeclared known (nestedDeclarations first next ps).1
  | [], first, next, _ => by
      rw [nestedDeclarations]
      trivial
  | .name x :: ps, first, next, hknown => by
      rw [slotNames, List.cons_subset] at hknown
      rw [nestedDeclarations]
      exact readsDeclared_nestedDeclarations ps first next hknown.2
  | .tuple slots :: ps, first, next, hknown => by
      rw [slotNames, List.cons_subset] at hknown
      rw [nestedDeclarations]
      refine Declaration.readsDeclared_append.mpr ⟨?_, ?_⟩
      · refine readsDeclared_declarations (.tuple slots) _ _ ?_
        rintro x ⟨⟩
        exact hknown.1
      · exact readsDeclared_nestedDeclarations ps _ _
          (List.Subset.trans hknown.2 (List.subset_append_left _ _))

end

mutual

/-- Only the first declaration reads the source. -/
theorem countP_initial_declarations :
    (p : Pattern) → (first next : Nat) → (source : Source) →
      (declarations first next source p).1.countP (·.source = .initial) =
        if source = .initial then 1 else 0
  | .name x, first, next, source => by
      rw [declarations, List.countP_singleton]
      cases source <;> rfl
  | .tuple slots, first, next, source => by
      rw [declarations, List.countP_cons, countP_initial_nestedDeclarations slots first next]
      cases source <;> rfl

theorem countP_initial_nestedDeclarations :
    (ps : List Pattern) → (first next : Nat) →
      (nestedDeclarations first next ps).1.countP (·.source = .initial) = 0
  | [], first, next => by
      rw [nestedDeclarations]
      rfl
  | .name x :: ps, first, next => by
      rw [nestedDeclarations]
      exact countP_initial_nestedDeclarations ps first next
  | .tuple slots :: ps, first, next => by
      rw [nestedDeclarations, List.countP_append, countP_initial_nestedDeclarations ps,
        countP_initial_declarations (.tuple slots)]
      rfl

end

/-! ## What declarations bind -/

theorem length_slotNames
    (first : Nat) (ps : List Pattern) : (slotNames first ps).length = ps.length := by
  induction ps generalizing first with
  | nil => rfl
  | cons p ps ih =>
      cases p with
      | name x => rw [slotNames, List.length_cons, List.length_cons, ih]
      | tuple slots => rw [slotNames, List.length_cons, List.length_cons, ih]

section

variable (initial : Component α)

mutual

/-- The declarations of a pattern bind its names as matching does. -/
theorem bindingsList?_declarations :
    (p : Pattern) → (first next : Nat) → {source : Source} → {vars : Variables α} →
      {v : Component α} → {bs : Bindings α} →
      (∀ path q, p.part? path = some q → q ≠ .tuple []) →
      (Declaration.declared (declarations first next source p).1).Nodup →
      source.value? initial vars = some v → p.components? v = some bs →
      ∃ all, Declaration.bindingsList? initial vars (declarations first next source p).1 =
          some all ∧
        all.map Prod.fst = Declaration.declared (declarations first next source p).1 ∧ bs ⊆ all
  | .name x, first, next, source, vars, v, bs, _, _, hsource, hmatch => by
      rw [Pattern.components?] at hmatch
      cases hmatch
      rw [declarations]
      refine ⟨[(x, v)], ?_, rfl, fun b hb => hb⟩
      simp [Declaration.bindingsList?, Declaration.bindings?, hsource]
  | .tuple slots, first, next, source, vars, v, bs, hsolid, hdistinct, hsource, hmatch => by
      obtain ⟨vs, rfl, hslots⟩ := Pattern.components?_tuple_eq_some.mp hmatch
      obtain ⟨hnonempty, hparts⟩ := Pattern.forall_part_tuple.mp hsolid
      have hlength : (slotNames first slots).length ≤ vs.length := by
        rw [length_slotNames]
        exact Pattern.length_le_of_componentsList hslots
      rw [declarations] at hdistinct ⊢
      have hnames : ((slotNames first slots).zip vs).map Prod.fst = slotNames first slots :=
        List.map_fst_zip hlength
      have hunpack : Declaration.bindings? initial vars (.unpack (slotNames first slots) source) =
          some ((slotNames first slots).zip vs) := by
        have hvariable : slotNames first slots ≠ [] := by
          rw [← List.length_pos_iff, length_slotNames, List.length_pos_iff]
          exact fun h => hnonempty (congrArg Pattern.tuple h)
        simp [Declaration.bindings?, hsource, hvariable, hlength]
      have hheld : ∀ b ∈ (slotNames first slots).zip vs,
          vars.bind ((slotNames first slots).zip vs) b.1 = some b.2 := by
        intro b hb
        refine vars.bind_of_mem ?_ hb
        rw [hnames]
        exact (List.nodup_append.mp hdistinct).1
      obtain ⟨rest, hrest, hdeclared, hsubset⟩ :=
        bindingsList?_nestedDeclarations slots first next hparts hdistinct hheld hslots
      refine ⟨(slotNames first slots).zip vs ++ rest, ?_, ?_, hsubset⟩
      · rw [Declaration.bindingsList?, hunpack, Option.bind_eq_bind, Option.bind_some, hrest]
        rfl
      · rw [List.map_append, hnames, hdeclared]
        rfl

/-- The variables for the slots are held already. -/
theorem bindingsList?_nestedDeclarations :
    (ps : List Pattern) → (first next : Nat) → {vars : Variables α} →
      {vs : List (Component α)} → {bs : Bindings α} →
      (∀ p ∈ ps, ∀ path q, p.part? path = some q → q ≠ .tuple []) →
      (slotNames first ps ++ Declaration.declared (nestedDeclarations first next ps).1).Nodup →
      (∀ b ∈ (slotNames first ps).zip vs, vars b.1 = some b.2) →
      Pattern.componentsList? ps vs = some bs →
      ∃ all, Declaration.bindingsList? initial vars (nestedDeclarations first next ps).1 =
          some all ∧
        all.map Prod.fst = Declaration.declared (nestedDeclarations first next ps).1 ∧
        bs ⊆ (slotNames first ps).zip vs ++ all
  | [], first, next, vars, vs, bs, _, _, _, hmatch => by
      rw [Pattern.componentsList?] at hmatch
      cases hmatch
      rw [nestedDeclarations]
      exact ⟨[], rfl, rfl, List.nil_subset _⟩
  | .name x :: ps, first, next, vars, vs, bs, hsolid, hdistinct, hheld, hmatch => by
      obtain ⟨v, vs, firstSlot, others, rfl, hfirst, hothers, rfl⟩ :=
        Pattern.componentsList?_cons_eq_some.mp hmatch
      rw [Pattern.components?] at hfirst
      cases hfirst
      rw [nestedDeclarations] at hdistinct ⊢
      rw [slotNames] at hdistinct hheld ⊢
      rw [List.zip_cons_cons] at hheld ⊢
      obtain ⟨all, hall, hdeclared, hsubset⟩ :=
        bindingsList?_nestedDeclarations ps first next (List.forall_mem_cons.mp hsolid).2
          (List.nodup_cons.mp hdistinct).2 (List.forall_mem_cons.mp hheld).2 hothers
      refine ⟨all, hall, hdeclared, ?_⟩
      exact List.cons_subset_cons (x, v) hsubset
  | .tuple slots :: ps, first, next, vars, vs, bs, hsolid, hdistinct, hheld, hmatch => by
      obtain ⟨v, vs, firstSlot, others, rfl, hfirst, hothers, rfl⟩ :=
        Pattern.componentsList?_cons_eq_some.mp hmatch
      obtain ⟨hsolidFirst, hsolidRest⟩ := List.forall_mem_cons.mp hsolid
      rw [nestedDeclarations] at hdistinct ⊢
      rw [slotNames] at hdistinct hheld ⊢
      rw [List.zip_cons_cons] at hheld ⊢
      obtain ⟨hslot, hheldRest⟩ := List.forall_mem_cons.mp hheld
      dsimp only at hdistinct ⊢
      rw [Declaration.declared_append] at hdistinct ⊢
      obtain ⟨hslots, hlines, hseparate⟩ :=
        List.nodup_append.mp (List.nodup_cons.mp hdistinct).2
      obtain ⟨hlinesFirst, hlinesRest, -⟩ := List.nodup_append.mp hlines
      obtain ⟨inner, hinner, hdeclaredInner, hsubsetInner⟩ :=
        bindingsList?_declarations (.tuple slots) next (next + slots.countP isTuple)
          hsolidFirst hlinesFirst hslot hfirst
      -- The declarations for the first tuple leave the variables of the other slots alone.
      have hstill : ∀ b ∈ (slotNames (first + 1) ps).zip vs,
          vars.bind inner b.1 = some b.2 := by
        intro b hb
        rw [vars.bind_of_not_mem, hheldRest b hb]
        rw [hdeclaredInner]
        intro hmem
        exact hseparate b.1 (List.of_mem_zip hb).1 b.1 (List.mem_append_left _ hmem) rfl
      have hdistinctRest : (slotNames (first + 1) ps ++ Declaration.declared
          (nestedDeclarations (first + 1) (declarations next (next + slots.countP isTuple)
            (.named (slotName first)) (.tuple slots)).2 ps).1).Nodup :=
        List.nodup_append.mpr ⟨hslots, hlinesRest, fun x hx y hy =>
          hseparate x hx y (List.mem_append_right _ hy)⟩
      obtain ⟨outer, houter, hdeclaredOuter, hsubsetOuter⟩ :=
        bindingsList?_nestedDeclarations ps (first + 1) _ hsolidRest hdistinctRest hstill hothers
      refine ⟨inner ++ outer, Declaration.bindingsList?_append hinner houter, ?_, ?_⟩
      · rw [List.map_append, hdeclaredInner, hdeclaredOuter]
      · intro b hb
        rcases List.mem_append.mp hb with hb | hb
        · exact List.mem_cons_of_mem _
            (List.mem_append_right _ (List.mem_append_left _ (hsubsetInner hb)))
        · refine List.mem_cons_of_mem _ ?_
          rcases List.mem_append.mp (hsubsetOuter hb) with hb | hb
          · exact List.mem_append_left _ hb
          · exact List.mem_append_right _ (List.mem_append_right _ hb)

end

end

/-! ## The statement -/

/-- Taking a value apart writes declarations that bind the names of the pattern as matching
does.  They read the initial value once, and the local variables that are made up differ from
each other and are read behind their declarations. -/
theorem writeStmt_destructure_binds
    (place : Place) (p : Pattern) (e : Expr) (b : Text.Buffer)
    (hnonempty : ∀ path, p.part? path ≠ some (.tuple [])) (hdistinct : p.names.Nodup)
    (hplain : ∀ x ∈ p.names, ∀ n, x ≠ slotName n) :
    ∃ initial next lines last,
      (writeExpr e).run { b with locals := b.locals + nestedCount p } =
        ((), b.extend (initial, next)) ∧
      (writeStmt place (.destructure p e)).run b =
        ((), b.extend (Declaration.textOf b.indentation initial lines, last)) ∧
      lines.countP (·.source = .initial) = 1 ∧
      (Declaration.declared lines).Nodup ∧
      (∀ x ∈ Declaration.declared lines, x ∈ p.names ∨
        ∃ n, b.locals ≤ n ∧ n < last ∧ x = slotName n) ∧
      Declaration.ReadsDeclared [] lines ∧
      ∀ {α : Type} (vars : Variables α) (v : Component α) (bs : Bindings α),
        p.components? v = some bs →
        ∃ all, Declaration.bindingsList? v vars lines = some all ∧
          bs.map Prod.fst = p.names ∧ ∀ x u, (x, u) ∈ bs → vars.bind all x = some u := by
  let r := (expr b.depth e).run (b.locals + nestedCount p)
  have hnumbers : b.locals + nestedCount p ≤ r.2 := counts_expr e b.depth _
  have hsource : r.1.render b.width = Source.initial.text (r.1.render b.width) := rfl
  obtain ⟨htext, hlast⟩ :=
    render_destructure b.depth b.width (r.1.render b.width) p b.locals r.2 hsource
  have hdeclared := nodup_declared .initial hdistinct hplain hnumbers
  refine ⟨r.1.render b.width, r.2, (declarations b.locals r.2 .initial p).1,
    (declarations b.locals r.2 .initial p).2, ?_, ?_, ?_, hdeclared, ?_, ?_, ?_⟩
  · exact writeExpr_writes e b.depth { b with locals := b.locals + nestedCount p } rfl
  · have hrun := writeDestructure_writes b.depth (writeExpr_writes e b.depth) p b rfl
    rw [writeStmt, hrun, ← hlast, Text.Buffer.indentation, ← htext]
    rfl
  · exact countP_initial_declarations p b.locals r.2 .initial
  · obtain ⟨count, hcount, hperm⟩ := declared_declarations .initial p b.locals r.2
    intro x hx
    rw [hcount]
    rcases List.mem_append.mp (hperm.mem_iff.mp hx) with hx | hx
    · exact .inl hx
    · right
      rcases List.mem_append.mp hx with hx | hx
      · obtain ⟨n, hfirst, hn, rfl⟩ := mem_slotRange.mp hx
        exact ⟨n, hfirst, by omega, rfl⟩
      · obtain ⟨n, hfirst, hn, rfl⟩ := mem_slotRange.mp hx
        exact ⟨n, by omega, hn, rfl⟩
  · refine readsDeclared_declarations p b.locals r.2 fun x hx => ?_
    cases hx
  · intro α vars v bs hmatch
    obtain ⟨all, hall, hnames, hsubset⟩ := bindingsList?_declarations v p b.locals r.2
      (fun path q hq hempty => hnonempty path (hempty ▸ hq)) hdeclared rfl hmatch
    refine ⟨all, hall, p.map_fst_components hmatch, fun x u hu => ?_⟩
    exact vars.bind_of_mem (hnames ▸ hdeclared) (hsubset hu)

/-- Two nested tuples, one inside of the other, behind three local variables that were made up
before. -/
theorem writeStmt_destructure_binds_nested :
    let p : Pattern := .tuple [.tuple [.name "a", .tuple [.name "b"]], .name "c"]
    let leaf (s : String) : Component String := .atom s
    let value := .sequence [.sequence [leaf "first", .sequence [leaf "second"]], leaf "third"]
    let b : Text.Buffer := ⟨[], 1, 4, 3⟩
    ∃ initial lines last all,
      (writeStmt .statement (.destructure p (.ident "v"))).run b =
        ((), b.extend (Declaration.textOf 4 initial lines, last)) ∧
      (Declaration.declared lines).Nodup ∧
      Declaration.bindingsList? value (fun _ => none) lines = some all ∧
      ∀ x u, (x, u) ∈ [("a", leaf "first"), ("b", leaf "second"), ("c", leaf "third")] →
        Variables.bind (fun _ => none) all x = some u := by
  intro p leaf value b
  have hnonempty : ∀ path, p.part? path ≠ some (.tuple []) := by
    have hparts : ∀ path q, p.part? path = some q → q ≠ .tuple [] := by
      simp [p, Pattern.forall_part_tuple, Pattern.forall_part_name]
    exact fun path hpath => hparts path _ hpath rfl
  have hplain : ∀ x ∈ p.names, ∀ n, x ≠ slotName n := by
    have hshort : ∀ x ∈ p.names, x.length = 1 := by decide
    intro x hx n heq
    have hlength := hshort x hx
    rw [heq, slotName, String.length_append] at hlength
    have hmark : "__slot".length = 6 := rfl
    omega
  obtain ⟨initial, -, lines, last, -, hwritten, -, hdeclared, -, -, hbinds⟩ :=
    writeStmt_destructure_binds .statement p (.ident "v") b hnonempty (by decide) hplain
  obtain ⟨all, hall, -, hnames⟩ := hbinds (fun _ => none) value _ rfl
  exact ⟨initial, lines, last, all, hwritten, hdeclared, hall, hnames⟩

end Lua

end Bracket
