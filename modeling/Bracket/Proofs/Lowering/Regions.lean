import Bracket.Proofs.Lowering.Returns
import Bracket.Proofs.Tree.Nodes

/-!
# The regions of resources

`Program.resources` lists the resources of a program in the order of their numbers: those
of a scoped statement first, then those inside of its acquisitions, then those of its body.
So a resource is known by its position, and its position is the number that its generated
names end with.

The main statement is that the code of a program has, for every resource, the guarded region
with the number of the resource, that the region begins with the declarations of its pattern
from the generated name of the entry value, and that the pattern has no such name itself.
-/

namespace Bracket

/-! ## Resources in the order of their numbers -/

mutual

/-- The resources of an expression, which are those of its function literals. -/
def Expr.resources : Expr → List Item
  | .literal _ => []
  | .ident _ => []
  | .binary l _ r => l.resources ++ r.resources
  | .unary _ e => e.resources
  | .call f args => f.resources ++ Expr.resourcesList args
  | .methodCall r _ args => r.resources ++ Expr.resourcesList args
  | .member o p _ => o.resources ++ p.resources
  | .array es => Expr.resourcesList es
  | .object ps => Expr.resourcesPairs ps
  | .function f => f.resources
  | .conditional t a b => t.resources ++ (a.resources ++ b.resources)
  | .assign t v => t.resources ++ v.resources
  | .await e => e.resources

def Expr.resourcesList : List Expr → List Item
  | [] => []
  | e :: es => e.resources ++ Expr.resourcesList es

def Expr.resourcesOption : Option Expr → List Item
  | none => []
  | some e => e.resources

def Expr.resourcesPairs : List (String × Expr) → List Item
  | [] => []
  | (_, e) :: ps => e.resources ++ Expr.resourcesPairs ps

def Func.resources : Func → List Item
  | ⟨_, _, body, _⟩ => Stmt.resourcesList body

/-- The resources of a statement. -/
def Stmt.resources : Stmt → List Item
  | .expr e => e.resources
  | .declare _ i _ => Expr.resourcesOption i
  | .destructure _ i => i.resources
  | .block b => Stmt.resourcesList b
  | .ifElse t a b => t.resources ++ (a.resources ++ Stmt.resourcesOption b)
  | .whileLoop t b => t.resources ++ b.resources
  | .forLoop i t u b =>
      Stmt.resourcesOption i ++
        (Expr.resourcesOption t ++ (Expr.resourcesOption u ++ b.resources))
  | .forEach _ i b => i.resources ++ b.resources
  | .ret v => Expr.resourcesOption v
  | .breakLoop => []
  | .continueLoop => []
  | .throw e => e.resources
  | .tryCatch b _ h f => b.resources ++ (Stmt.resourcesOption h ++ Stmt.resourcesOption f)
  | .function f => f.resources
  | .holding s => s.resources

def Stmt.resourcesList : List Stmt → List Item
  | [] => []
  | s :: ss => s.resources ++ Stmt.resourcesList ss

def Stmt.resourcesOption : Option Stmt → List Item
  | none => []
  | some s => s.resources

/-- The resources inside of an acquisition. -/
def Item.inside : Item → List Item
  | ⟨acquire, _, _⟩ => acquire.resources

def Item.insideList : List Item → List Item
  | [] => []
  | item :: items => item.inside ++ Item.insideList items

/-- The resources of a scoped statement: its own, and those inside of its parts. -/
def Scoped.resources : Scoped → List Item
  | ⟨items, body, _⟩ => items ++ (Item.insideList items ++ Stmt.resourcesList body)

end

/-- The resources of a program. -/
def Program.resources (p : Program) : List Item := Stmt.resourcesList p.body

/-! ## Regions -/

namespace Pattern

/-- The pattern takes a value apart. -/
def isTuple : Pattern → Bool
  | .name _ => false
  | .tuple _ => true

end Pattern

namespace Context

variable (c : Context)

/-- The statement that runs the guarded region of resource `n`. -/
def region (isAsync : Bool) (n : Nat) (body : List Stmt) : Stmt :=
  if c.conventions.expansion = .protectedCall then
    .letConst (c.temp .outcome n)
      (.array [.call (.ident "pcall") [.function (.anonymous [] body)]])
  else
    .tryCatch (.block body) (some (c.temp .error n)) (some (c.onError isAsync n))
      (some (c.onLeave isAsync n))

/-- The declarations of a pattern from a source: the language takes tuples apart itself, or
every name is read by positions. -/
def declarations (source : Expr) (p : Pattern) : List Stmt :=
  if c.conventions.nativeUnpacking && p.isTuple then [.destructure p source]
  else p.indexedBindings c.conventions.indexBase source

/-- Among the nodes is the region of resource `n`, and it begins with the declarations of the
pattern from the entry value. -/
def BindsEntry (n : Nat) (p : Pattern) (nodes : List Node) : Prop :=
  ∃ isAsync rest,
    .stmt (c.region isAsync n (c.declarations (.ident (c.temp .value n)) p ++ rest)) ∈ nodes

theorem bindEntryValue_some
    (n : Nat) (p : Pattern) :
    c.bindEntryValue n (some p) = c.declarations (.ident (c.temp .value n)) p := by
  cases p with
  | name x => simp [bindEntryValue, declarations, Pattern.isTuple, Pattern.indexedBindings]
  | tuple slots => simp [bindEntryValue, declarations, Pattern.isTuple]

end Context

/-! ## Nodes of code -/

namespace Stmt

@[simp] theorem nodesList_append
    (a b : List Stmt) : nodesList (a ++ b) = nodesList a ++ nodesList b := by
  induction a with
  | nil => rfl
  | cons s a ih => rw [List.cons_append, nodesList, nodesList, ih, List.append_assoc]

theorem nodesList_subset_ofList (body : List Stmt) : nodesList body ⊆ (ofList body).nodes := by
  unfold ofList
  split
  · simp [nodesList]
  · exact List.subset_cons_self _ _

end Stmt

/-! ## What packing keeps -/

namespace Stmt

variable {x : String} {i : Option Expr} {m : Bool}

mutual

/-- Declarations stay in packed statements. -/
theorem declare_mem_packReturns
    {depth : Nat} {s' : Stmt} {found : Bool} :
    (s : Stmt) → packReturns depth s = .ok (s', found) →
      .stmt (.declare x i m) ∈ s.nodes → .stmt (.declare x i m) ∈ s'.nodes
  | .ret value, h, hmem => by
      cases h
      cases value <;> simp_all [Stmt.nodes, Expr.nodesOption, Expr.nodes, Expr.nodesList]
  | .breakLoop, _, hmem | .continueLoop, _, hmem => by simp [Stmt.nodes] at hmem
  | .block body, h, hmem => by
      obtain ⟨⟨body', found₁⟩, hbody, h⟩ := Except.bind_eq_ok.mp h
      cases h
      simp only [Stmt.nodes, List.mem_cons, Node.stmt.injEq, reduceCtorEq, false_or] at hmem ⊢
      exact declare_mem_packReturnsList body hbody hmem
  | .ifElse test a b, h, hmem => by
      obtain ⟨⟨a', found₁⟩, ha, h⟩ := Except.bind_eq_ok.mp h
      obtain ⟨⟨b', found₂⟩, hb, h⟩ := Except.bind_eq_ok.mp h
      cases h
      simp only [Stmt.nodes, List.mem_cons, Node.stmt.injEq, reduceCtorEq, false_or,
        List.mem_append] at hmem ⊢
      exact hmem.imp_right (.imp (declare_mem_packReturns a ha)
        (declare_mem_packReturnsOption b hb))
  | .whileLoop test body, h, hmem => by
      obtain ⟨⟨body', found₁⟩, hbody, h⟩ := Except.bind_eq_ok.mp h
      cases h
      simp only [Stmt.nodes, List.mem_cons, Node.stmt.injEq, reduceCtorEq, false_or,
        List.mem_append] at hmem ⊢
      exact hmem.imp_right (declare_mem_packReturns body hbody)
  | .forLoop init test update body, h, hmem => by
      obtain ⟨⟨body', found₁⟩, hbody, h⟩ := Except.bind_eq_ok.mp h
      cases h
      simp only [Stmt.nodes, List.mem_cons, Node.stmt.injEq, reduceCtorEq, false_or,
        List.mem_append] at hmem ⊢
      exact hmem.imp_right (.imp_right (.imp_left (declare_mem_packReturns body hbody)))
  | .forEach y iterable body, h, hmem => by
      obtain ⟨⟨body', found₁⟩, hbody, h⟩ := Except.bind_eq_ok.mp h
      cases h
      simp only [Stmt.nodes, List.mem_cons, Node.stmt.injEq, reduceCtorEq, false_or,
        List.mem_append] at hmem ⊢
      exact hmem.imp_right (declare_mem_packReturns body hbody)
  | .tryCatch body y handler final, h, hmem => by
      obtain ⟨⟨body', found₁⟩, hbody, h⟩ := Except.bind_eq_ok.mp h
      obtain ⟨⟨handler', found₂⟩, hhandler, h⟩ := Except.bind_eq_ok.mp h
      obtain ⟨⟨final', found₃⟩, hfinal, h⟩ := Except.bind_eq_ok.mp h
      cases h
      simp only [Stmt.nodes, List.mem_cons, Node.stmt.injEq, reduceCtorEq, false_or,
        List.mem_append] at hmem ⊢
      exact hmem.imp (declare_mem_packReturns body hbody)
        (.imp (declare_mem_packReturnsOption handler hhandler)
          (declare_mem_packReturnsOption final hfinal))
  | .holding ⟨items, body, isAsync⟩, _, hmem => by simp [Stmt.nodes] at hmem
  | .expr _, h, hmem | .declare .., h, hmem | .destructure .., h, hmem | .throw _, h, hmem
  | .function _, h, hmem => by
      cases h
      exact hmem

theorem declare_mem_packReturnsList
    {depth : Nat} {ss' : List Stmt} {found : Bool} :
    (ss : List Stmt) → packReturnsList depth ss = .ok (ss', found) →
      .stmt (.declare x i m) ∈ nodesList ss → .stmt (.declare x i m) ∈ nodesList ss'
  | [], _, hmem => absurd hmem List.not_mem_nil
  | s :: ss, h, hmem => by
      obtain ⟨⟨s', found₁⟩, hs, h⟩ := Except.bind_eq_ok.mp h
      obtain ⟨⟨ss', found₂⟩, hss, h⟩ := Except.bind_eq_ok.mp h
      cases h
      rw [nodesList, List.mem_append] at hmem ⊢
      exact hmem.imp (declare_mem_packReturns s hs) (declare_mem_packReturnsList ss hss)

theorem declare_mem_packReturnsOption
    {depth : Nat} {s' : Option Stmt} {found : Bool} :
    (s : Option Stmt) → packReturnsOption depth s = .ok (s', found) →
      .stmt (.declare x i m) ∈ nodesOption s → .stmt (.declare x i m) ∈ nodesOption s'
  | none, _, hmem => absurd hmem List.not_mem_nil
  | some s, h, hmem => by
      obtain ⟨⟨s', found₁⟩, hs, h⟩ := Except.bind_eq_ok.mp h
      cases h
      exact declare_mem_packReturns s hs hmem

end

/-- Statements that only bind stay in front of packed statements. -/
theorem packReturnsList_append_of_isBinding
    {binds ss packed : List Stmt} {depth : Nat} {found : Bool}
    (hbinds : ∀ b ∈ binds, b.isBinding)
    (h : packReturnsList depth (binds ++ ss) = .ok (packed, found)) :
    ∃ rest, packed = binds ++ rest ∧ packReturnsList depth ss = .ok (rest, found) := by
  induction binds generalizing packed found with
  | nil => exact ⟨packed, rfl, h⟩
  | cons b binds ih =>
      obtain ⟨⟨b', found₁⟩, hb, h⟩ := Except.bind_eq_ok.mp h
      obtain ⟨⟨bs', found₂⟩, hrest, h⟩ := Except.bind_eq_ok.mp h
      cases h
      obtain ⟨rest, rfl, hss⟩ := ih (fun b hb => hbinds b (List.mem_cons_of_mem _ hb)) hrest
      have hkept : packReturns depth b = .ok (b, false) := by
        have hbinding := hbinds b List.mem_cons_self
        cases b <;> first | rfl | cases hbinding
      cases hkept.symm.trans hb
      exact ⟨rest, rfl, hss⟩

end Stmt

/-! ## What expansions hold -/

namespace Context

variable {c : Context}

/-- All regions among the first nodes are among the second ones. -/
def Retains (c : Context) (ns ms : List Node) : Prop :=
  ∀ isAsync n body, .stmt (c.region isAsync n body) ∈ ns → .stmt (c.region isAsync n body) ∈ ms

theorem Retains.of_subset {ns ms : List Node} (h : ns ⊆ ms) : c.Retains ns ms :=
  fun _ _ _ hmem => h hmem

theorem Retains.trans
    {ns ms os : List Node} (h : c.Retains ns ms) (h' : c.Retains ms os) : c.Retains ns os :=
  fun isAsync n body hmem => h' isAsync n body (h isAsync n body hmem)

theorem Retains.of_packReturns
    {ss packed : List Stmt} {depth : Nat} {found : Bool}
    (hstyle : c.conventions.expansion = .protectedCall)
    (h : Stmt.packReturnsList depth ss = .ok (packed, found)) :
    c.Retains (Stmt.nodesList ss) (Stmt.nodesList packed) := by
  intro isAsync n body hmem
  rw [region, if_pos hstyle] at hmem ⊢
  exact Stmt.declare_mem_packReturnsList ss h hmem

/-- What the code of one resource holds: the acquisition, the regions of the held statements,
and its own region, which begins with the binding. -/
structure HoldsRegion
    (c : Context) (n : Nat) (item : Item) (inner code : List Stmt) : Prop where
  acquire : item.acquire.nodes ⊆ Stmt.nodesList code
  inner : c.Retains (Stmt.nodesList inner) (Stmt.nodesList code)
  region : ∃ isAsync rest,
    .stmt (c.region isAsync n (c.bindEntryValue n item.binding ++ rest)) ∈ Stmt.nodesList code

theorem acquire_subset_enterStatements
    (c : Context) (n : Nat) (item : Item) (enter : Expr) (rest : List Stmt) :
    item.acquire.nodes ⊆ Stmt.nodesList (c.enterStatements n item enter ++ rest) := by
  intro node hnode
  simp [enterStatements, Stmt.nodesList, Stmt.letConst, Stmt.nodes, Expr.nodesOption, hnode]

theorem holdsRegion_expandGuarded
    (hstyle : c.conventions.expansion ≠ .protectedCall) (isAsync : Bool) (n : Nat) (item : Item)
    (inner : List Stmt) : c.HoldsRegion n item inner (c.expandGuarded isAsync n item inner) where
  acquire := c.acquire_subset_enterStatements n item _ _
  inner := .of_subset fun node hnode => by
    simp [expandGuarded, Stmt.nodesList, Stmt.nodes, hnode]
  region := ⟨isAsync, inner, by
    simp [expandGuarded, region, hstyle, Stmt.nodesList, Stmt.nodes]⟩

theorem holdsRegion_expandProtected
    {n : Nat} {item : Item} {inner code : List Stmt}
    (hstyle : c.conventions.expansion = .protectedCall)
    (h : c.expandProtected n item inner = .ok code) : c.HoldsRegion n item inner code := by
  unfold expandProtected at h
  split at h
  · cases h
  · rename_i packed found hpack
    obtain rfl := Except.ok.inj h
    obtain ⟨rest, rfl, hrest⟩ := Stmt.packReturnsList_append_of_isBinding
      (fun b hb => isBinding_bindEntryValue hb) hpack
    refine ⟨c.acquire_subset_enterStatements n item _ _, ?_, false, rest, ?_⟩
    · refine (Retains.of_packReturns hstyle hrest).trans (.of_subset fun node hnode => ?_)
      simp [Stmt.nodesList, Stmt.nodes, Stmt.letConst, Expr.nodesOption, Expr.nodes,
        Expr.nodesList, Func.nodes, Func.anonymous, hnode]
    · simp [region, hstyle, Stmt.nodesList, Stmt.nodes, Stmt.letConst]

/-- What nested expansions hold: all acquisitions, the regions of the held statements, and
the region of every item under its own number. -/
theorem holdsRegions_expandItems
    {isAsync : Bool} {n : Nat} {items : List Item} {inner code : List Stmt}
    (h : c.expandItems isAsync n items inner = .ok code) :
    c.Retains (Expr.nodesList (items.map Item.acquire)) (Stmt.nodesList code) ∧
      c.Retains (Stmt.nodesList inner) (Stmt.nodesList code) ∧
      ∀ i item, items[i]? = some item → ∃ isAsync rest,
        .stmt (c.region isAsync (n + i) (c.bindEntryValue (n + i) item.binding ++ rest)) ∈
          Stmt.nodesList code := by
  induction items generalizing n code with
  | nil =>
      cases h
      exact ⟨.of_subset (List.nil_subset _), .of_subset (List.Subset.refl _), by simp⟩
  | cons item items ih =>
      obtain ⟨held, hheld, h⟩ := Except.bind_eq_ok.mp h
      obtain ⟨hacquires, hinner, hregions⟩ := ih hheld
      have hone : c.HoldsRegion n item held code := by
        by_cases hstyle : c.conventions.expansion = .protectedCall
        · rw [if_pos hstyle] at h
          exact holdsRegion_expandProtected hstyle h
        · rw [if_neg hstyle] at h
          cases h
          exact holdsRegion_expandGuarded hstyle isAsync n item held
      refine ⟨?_, hinner.trans hone.inner, ?_⟩
      · intro isAsync' m body hmem
        rw [List.map_cons, Expr.nodesList, List.mem_append] at hmem
        rcases hmem with hmem | hmem
        · exact hone.acquire hmem
        · exact hone.inner _ _ _ (hacquires _ _ _ hmem)
      · intro i item' hitem
        cases i with
        | zero =>
            cases hitem
            exact hone.region
        | succ i =>
            obtain ⟨isAsync', rest, hmem⟩ := hregions i item' hitem
            rw [Nat.add_assoc, Nat.add_comm 1] at hmem
            exact ⟨isAsync', rest, hone.inner _ _ _ hmem⟩

/-- From number `k` to number `j` the resources are lowered: each of them takes one number, its
binding is checked, and its region among the nodes begins with the binding. -/
structure Places (c : Context) (k j : Nat) (items : List Item) (nodes : List Node) : Prop where
  number : j = k + items.length
  checked : ∀ item ∈ items, c.checkBinding item = .ok ()
  entry : ∀ i item p, items[i]? = some item → item.binding = some p → c.BindsEntry (k + i) p nodes

namespace Places

variable {k i j : Nat} {items items' : List Item} {ns ms : List Node}

theorem nil (c : Context) (k : Nat) (ns : List Node) : c.Places k k [] ns :=
  ⟨rfl, by simp, by simp⟩

theorem mono (h : c.Places k j items ns) (hsub : c.Retains ns ms) : c.Places k j items ms where
  number := h.number
  checked := h.checked
  entry i item p hitem hp := by
    obtain ⟨isAsync, rest, hmem⟩ := h.entry i item p hitem hp
    exact ⟨isAsync, rest, hsub _ _ _ hmem⟩

theorem append
    (h : c.Places k i items ns) (h' : c.Places i j items' ns) :
    c.Places k j (items ++ items') ns where
  number := by rw [h'.number, h.number, List.length_append, Nat.add_assoc]
  checked := List.forall_mem_append.mpr ⟨h.checked, h'.checked⟩
  entry m item p hitem hp := by
    by_cases hm : m < items.length
    · rw [List.getElem?_append_left hm] at hitem
      exact h.entry m item p hitem hp
    · have hnumber : i + (m - items.length) = k + m := by
        rw [h.number]
        omega
      rw [List.getElem?_append_right (by omega)] at hitem
      rw [← hnumber]
      exact h'.entry _ item p hitem hp

end Places

end Context

/-! ## Lowering -/

namespace Lowering

/-- Where the computation succeeds, its result has the nodes `before`, and the resources are
placed among its nodes. -/
def Places
    {α : Type} (c : Context) (before : List Node) (items : List Item) (nodes : α → List Node)
    (m : Lowering α) : Prop :=
  ∀ ⦃k a j⦄, m.run k = .ok (a, j) → before ⊆ nodes a ∧ c.Places k j items (nodes a)

namespace Places

variable {α β : Type} {c : Context} {before : List Node} {items items' : List Item}
  {f : α → List Node} {g : β → List Node} {m : Lowering α}

theorem pure {a : α} (h : before ⊆ f a) : Places c before [] f (Pure.pure a) := by
  intro k a' j hrun
  cases pure_eq_ok.mp hrun
  exact ⟨h, .nil c k _⟩

theorem bind
    {l : α → Lowering β} (h : Places c [] items f m)
    (hl : ∀ a, Places c (before ++ f a) items' g (l a)) :
    Places c before (items ++ items') g (m >>= l) := by
  intro k b j hrun
  obtain ⟨a, i, hm, hrest⟩ := bind_eq_ok.mp hrun
  obtain ⟨-, hplaces⟩ := h hm
  obtain ⟨hsub, hplaces'⟩ := hl a hrest
  obtain ⟨hbefore, hf⟩ := List.append_subset.mp hsub
  exact ⟨hbefore, (hplaces.mono (.of_subset hf)).append hplaces'⟩

theorem mono
    {f' : α → List Node} (h : Places c before items f m) (hsub : ∀ a, f a ⊆ f' a) :
    Places c before items f' m := by
  intro k a j hrun
  obtain ⟨hbefore, hplaces⟩ := h hrun
  exact ⟨List.Subset.trans hbefore (hsub a), hplaces.mono (.of_subset (hsub a))⟩

/-- Statements in the place of one statement. -/
theorem ofList
    {m : Lowering (List Stmt)} (h : Places c before items Stmt.nodesList m) :
    Places c before items (fun body => (Stmt.ofList body).nodes) m :=
  h.mono Stmt.nodesList_subset_ofList

/-- The last step but one, when only the result is put together after it. -/
theorem last
    {b : α → β} (h : Places c [] items f m) (hsub : ∀ a, before ++ f a ⊆ g (b a)) :
    Places c before items g (m >>= fun a => Pure.pure (b a)) := by
  rw [← List.append_nil items]
  exact h.bind fun a => .pure (hsub a)

/-- The same, when the result is a single statement with the given parts. -/
theorem single
    {s : α → Stmt} {n : α → Node} {parts : α → List Node} (h : Places c [] items f m)
    (hs : ∀ a, (s a).nodes = n a :: parts a) (hsub : ∀ a, before ++ f a ⊆ parts a) :
    Places c before items Stmt.nodesList (m >>= fun a => Pure.pure [s a]) := by
  refine h.last fun a => ?_
  rw [Stmt.nodesList, Stmt.nodesList, List.append_nil, hs]
  exact List.Subset.trans (hsub a) (List.subset_cons_self _ _)

end Places

end Lowering

section

open Lowering

variable {c : Context}

mutual

/-- The resources of an expression are placed in what it is lowered to. -/
theorem Expr.lower_places
    (hstyle : c.conventions.expansion ≠ .native) (inAsync : Bool) :
    (e : Expr) → Places c [] e.resources Expr.nodes (e.lower c inAsync)
  | .literal l => by
      rw [Expr.lower]
      exact .pure (List.nil_subset _)
  | .ident x => by
      rw [Expr.lower]
      exact .pure (List.nil_subset _)
  | .binary l op r => by
      rw [Expr.lower]
      refine (Expr.lower_places hstyle inAsync l).bind fun l => ?_
      exact (Expr.lower_places hstyle inAsync r).last fun r => List.subset_cons_self _ _
  | .unary op e => by
      rw [Expr.lower]
      exact (Expr.lower_places hstyle inAsync e).last fun e => List.subset_cons_self _ _
  | .call f args => by
      rw [Expr.lower]
      refine (Expr.lower_places hstyle inAsync f).bind fun f => ?_
      exact (Expr.lowerList_places hstyle inAsync args).last fun args => List.subset_cons_self _ _
  | .methodCall r m args => by
      rw [Expr.lower]
      refine (Expr.lower_places hstyle inAsync r).bind fun r => ?_
      exact (Expr.lowerList_places hstyle inAsync args).last fun args => List.subset_cons_self _ _
  | .member o p computed => by
      rw [Expr.lower]
      refine (Expr.lower_places hstyle inAsync o).bind fun o => ?_
      exact (Expr.lower_places hstyle inAsync p).last fun p => List.subset_cons_self _ _
  | .array es => by
      rw [Expr.lower]
      exact (Expr.lowerList_places hstyle inAsync es).last fun es => List.subset_cons_self _ _
  | .object ps => by
      rw [Expr.lower]
      exact (Expr.lowerPairs_places hstyle inAsync ps).last fun ps => List.subset_cons_self _ _
  | .function f => by
      rw [Expr.lower]
      exact (Func.lower_places hstyle f).last fun f => List.subset_cons_self _ _
  | .conditional t a b => by
      rw [Expr.lower]
      refine (Expr.lower_places hstyle inAsync t).bind fun t => ?_
      refine (Expr.lower_places hstyle inAsync a).bind fun a => ?_
      refine (Expr.lower_places hstyle inAsync b).last fun b => ?_
      rw [List.append_assoc]
      exact List.subset_cons_self _ _
  | .assign t v => by
      rw [Expr.lower]
      refine (Expr.lower_places hstyle inAsync t).bind fun t => ?_
      exact (Expr.lower_places hstyle inAsync v).last fun v => List.subset_cons_self _ _
  | .await e => by
      rw [Expr.lower]
      exact (Expr.lower_places hstyle inAsync e).last fun e => List.subset_cons_self _ _

theorem Expr.lowerList_places
    (hstyle : c.conventions.expansion ≠ .native) (inAsync : Bool) :
    (es : List Expr) →
      Places c [] (Expr.resourcesList es) Expr.nodesList (Expr.lowerList c inAsync es)
  | [] => by
      rw [Expr.lowerList]
      exact .pure (List.nil_subset _)
  | e :: es => by
      rw [Expr.lowerList]
      refine (Expr.lower_places hstyle inAsync e).bind fun e => ?_
      exact (Expr.lowerList_places hstyle inAsync es).last fun es => List.Subset.refl _

theorem Expr.lowerOption_places
    (hstyle : c.conventions.expansion ≠ .native) (inAsync : Bool) :
    (e : Option Expr) →
      Places c [] (Expr.resourcesOption e) Expr.nodesOption (Expr.lowerOption c inAsync e)
  | none => by
      rw [Expr.lowerOption]
      exact .pure (List.nil_subset _)
  | some e => by
      rw [Expr.lowerOption]
      exact (Expr.lower_places hstyle inAsync e).last fun e => List.Subset.refl _

theorem Expr.lowerPairs_places
    (hstyle : c.conventions.expansion ≠ .native) (inAsync : Bool) :
    (ps : List (String × Expr)) →
      Places c [] (Expr.resourcesPairs ps) Expr.nodesPairs (Expr.lowerPairs c inAsync ps)
  | [] => by
      rw [Expr.lowerPairs]
      exact .pure (List.nil_subset _)
  | (x, e) :: ps => by
      rw [Expr.lowerPairs]
      refine (Expr.lower_places hstyle inAsync e).bind fun e => ?_
      exact (Expr.lowerPairs_places hstyle inAsync ps).last fun ps => List.Subset.refl _

theorem Func.lower_places
    (hstyle : c.conventions.expansion ≠ .native) :
    (f : Func) → Places c [] f.resources Func.nodes (f.lower c)
  | ⟨name, params, body, isAsync⟩ => by
      rw [Func.lower]
      exact (Stmt.lowerList_places hstyle isAsync body).last fun body => List.Subset.refl _

/-- The resources of a statement are placed in what it is lowered to. -/
theorem Stmt.lower_places
    (hstyle : c.conventions.expansion ≠ .native) (inAsync : Bool) :
    (s : Stmt) → Places c [] s.resources Stmt.nodesList (s.lower c inAsync)
  | .expr e => by
      rw [Stmt.lower]
      exact (Expr.lower_places hstyle inAsync e).single (fun _ => rfl) fun _ => List.Subset.refl _
  | .declare x i m => by
      rw [Stmt.lower]
      exact (Expr.lowerOption_places hstyle inAsync i).single (fun _ => rfl)
        fun _ => List.Subset.refl _
  | .destructure p i => by
      rw [Stmt.lower]
      exact (Expr.lower_places hstyle inAsync i).single (fun _ => rfl) fun _ => List.Subset.refl _
  | .block b => by
      rw [Stmt.lower]
      exact (Stmt.lowerList_places hstyle inAsync b).single (fun _ => rfl)
        fun _ => List.Subset.refl _
  | .ifElse t a b => by
      rw [Stmt.lower]
      refine (Expr.lower_places hstyle inAsync t).bind fun t => ?_
      refine (Stmt.lower_places hstyle inAsync a).ofList.bind fun a => ?_
      refine (Stmt.lowerOption_places hstyle inAsync b).single (fun _ => rfl) fun b => ?_
      rw [List.append_assoc]
      exact List.Subset.refl _
  | .whileLoop t b => by
      rw [Stmt.lower]
      refine (Expr.lower_places hstyle inAsync t).bind fun t => ?_
      exact (Stmt.lower_places hstyle inAsync b).ofList.single (fun _ => rfl)
        fun _ => List.Subset.refl _
  | .forLoop i t u b => by
      rw [Stmt.lower]
      refine (Stmt.lowerOption_places hstyle inAsync i).bind fun i => ?_
      refine (Expr.lowerOption_places hstyle inAsync t).bind fun t => ?_
      refine (Expr.lowerOption_places hstyle inAsync u).bind fun u => ?_
      refine (Stmt.lower_places hstyle inAsync b).ofList.single (fun _ => rfl) fun b => ?_
      -- The update is lowered before the body but stands behind it.
      intro n hn
      simp only [List.nil_append, List.append_assoc, List.mem_append] at hn ⊢
      exact hn.imp_right (.imp_right .symm)
  | .forEach x i b => by
      rw [Stmt.lower]
      refine (Expr.lower_places hstyle inAsync i).bind fun i => ?_
      exact (Stmt.lower_places hstyle inAsync b).ofList.single (fun _ => rfl)
        fun _ => List.Subset.refl _
  | .ret v => by
      rw [Stmt.lower]
      exact (Expr.lowerOption_places hstyle inAsync v).single (fun _ => rfl)
        fun _ => List.Subset.refl _
  | .breakLoop => by
      rw [Stmt.lower]
      exact .pure (List.nil_subset _)
  | .continueLoop => by
      rw [Stmt.lower]
      exact .pure (List.nil_subset _)
  | .throw e => by
      rw [Stmt.lower]
      exact (Expr.lower_places hstyle inAsync e).single (fun _ => rfl) fun _ => List.Subset.refl _
  | .tryCatch b x h f => by
      rw [Stmt.lower]
      refine (Stmt.lower_places hstyle inAsync b).ofList.bind fun b => ?_
      refine (Stmt.lowerOption_places hstyle inAsync h).bind fun h => ?_
      refine (Stmt.lowerOption_places hstyle inAsync f).single (fun _ => rfl) fun f => ?_
      rw [List.append_assoc]
      exact List.Subset.refl _
  | .function f => by
      rw [Stmt.lower]
      exact (Func.lower_places hstyle f).single (fun _ => rfl) fun _ => List.Subset.refl _
  | .holding s => by
      rw [Stmt.lower]
      exact Scoped.lower_places hstyle inAsync s

theorem Stmt.lowerList_places
    (hstyle : c.conventions.expansion ≠ .native) (inAsync : Bool) :
    (ss : List Stmt) →
      Places c [] (Stmt.resourcesList ss) Stmt.nodesList (Stmt.lowerList c inAsync ss)
  | [] => by
      rw [Stmt.lowerList]
      exact .pure (List.nil_subset _)
  | s :: ss => by
      rw [Stmt.lowerList]
      refine (Stmt.lower_places hstyle inAsync s).bind fun s => ?_
      refine (Stmt.lowerList_places hstyle inAsync ss).last fun ss => ?_
      rw [Stmt.nodesList_append]
      exact List.Subset.refl _

theorem Stmt.lowerOption_places
    (hstyle : c.conventions.expansion ≠ .native) (inAsync : Bool) :
    (s : Option Stmt) →
      Places c [] (Stmt.resourcesOption s) Stmt.nodesOption (Stmt.lowerOption c inAsync s)
  | none => by
      rw [Stmt.lowerOption]
      exact .pure (List.nil_subset _)
  | some s => by
      rw [Stmt.lowerOption]
      exact (Stmt.lower_places hstyle inAsync s).ofList.last fun s => List.Subset.refl _

/-- Acquisitions are lowered with the resources inside of them; bindings are checked and stay
as they are. -/
theorem Item.lowerList_places
    (hstyle : c.conventions.expansion ≠ .native) (inAsync : Bool) :
    (items : List Item) → ∀ ⦃k items' j⦄,
      (Item.lowerList c inAsync items).run k = .ok (items', j) →
        items'.map Item.binding = items.map Item.binding ∧
        (∀ item ∈ items, c.checkBinding item = .ok ()) ∧
        c.Places k j (Item.insideList items) (Expr.nodesList (items'.map Item.acquire))
  | [] => by
      intro k result j h
      rw [Item.lowerList] at h
      cases pure_eq_ok.mp h
      exact ⟨rfl, by simp, .nil c _ _⟩
  | ⟨acquire, binding, arity⟩ :: items => by
      intro k result j h
      rw [Item.lowerList] at h
      obtain ⟨item', i, hitem, h⟩ := bind_eq_ok.mp h
      obtain ⟨items', i', hitems, h⟩ := bind_eq_ok.mp h
      cases pure_eq_ok.mp h
      rw [Item.lower] at hitem
      obtain ⟨_, _, hlift, hitem⟩ := bind_eq_ok.mp hitem
      obtain ⟨_, hcheck, hr⟩ := lift_eq_ok.mp hlift
      cases hr
      obtain ⟨acquire', _, hacquire, hitem⟩ := bind_eq_ok.mp hitem
      cases pure_eq_ok.mp hitem
      obtain ⟨-, hfirst⟩ := Expr.lower_places hstyle inAsync acquire hacquire
      obtain ⟨hbindings, hchecks, hrest⟩ := Item.lowerList_places hstyle inAsync items hitems
      refine ⟨by simp [hbindings], List.forall_mem_cons.mpr ⟨hcheck, hchecks⟩, ?_⟩
      exact (hfirst.mono (.of_subset (List.subset_append_left _ _))).append
        (hrest.mono (.of_subset (List.subset_append_right _ _)))

/-- The resources of a scoped statement are placed in its expansion. -/
theorem Scoped.lower_places
    (hstyle : c.conventions.expansion ≠ .native) (inAsync : Bool) :
    (s : Scoped) → Places c [] s.resources Stmt.nodesList (s.lower c inAsync)
  | ⟨items, body, isAsync⟩ => by
      intro k code j h
      obtain ⟨-, -, items', body', i, hitems, hbody, hcode⟩ := Scoped.lower_eq_ok.mp h
      rw [Context.expandScoped, if_neg hstyle] at hcode
      obtain ⟨hbindings, hchecked, hinside⟩ := Item.lowerList_places hstyle inAsync items hitems
      obtain ⟨-, hbody⟩ := Stmt.lowerList_places hstyle inAsync body hbody
      obtain ⟨hacquires, hinner, hregions⟩ := Context.holdsRegions_expandItems hcode
      have hown : c.Places k (k + items.length) items (Stmt.nodesList code) := by
        refine ⟨rfl, hchecked, fun m item p hitem hp => ?_⟩
        have hbinding : (items'.map Item.binding)[m]? = some (some p) := by
          rw [hbindings, List.getElem?_map, hitem, Option.map_some, hp]
        obtain ⟨item', hitem', hp'⟩ := Option.map_eq_some_iff.mp
          ((List.getElem?_map ..).symm.trans hbinding)
        obtain ⟨isAsync', rest, hmem⟩ := hregions m item' hitem'
        rw [hp', c.bindEntryValue_some] at hmem
        exact ⟨isAsync', rest, hmem⟩
      exact ⟨List.nil_subset _,
        hown.append ((hinside.mono hacquires).append (hbody.mono hinner))⟩

end

end

/-- The resources of a program are placed in its code, numbered from zero on. -/
theorem Program.places_of_lower
    {c : Context} {inAsync : Bool} {p q : Program} (hstyle : c.conventions.expansion ≠ .native)
    (h : p.lower c inAsync = .ok q) : c.Places 0 p.resources.length p.resources q.nodes := by
  obtain ⟨⟨body, j⟩, hbody, h⟩ := Except.bind_eq_ok.mp h
  cases h
  obtain ⟨-, hplaces⟩ := Stmt.lowerList_places hstyle inAsync p.body hbody
  have hj := hplaces.number
  rw [Nat.zero_add] at hj
  exact hj ▸ hplaces

end Bracket
