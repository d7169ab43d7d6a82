import Bracket.Proofs.Lowering.Run

/-!
# Several resources as nested statements

A scoped statement of several resources lowers like a statement of the first one
around a statement of the others, down to the numbers of the resources and to the
error, if there is one.  The acquisitions must hold no scoped statements of their
own, since these would be numbered at another moment.
-/

namespace Bracket

/-! ## Scoped statements in code -/

mutual

/-- The expression contains a scoped statement, inside of a function. -/
def Expr.hasScoped : Expr → Bool
  | .literal _ => false
  | .ident _ => false
  | .binary l _ r => l.hasScoped || r.hasScoped
  | .unary _ e => e.hasScoped
  | .call f args => f.hasScoped || Expr.hasScopedList args
  | .methodCall r _ args => r.hasScoped || Expr.hasScopedList args
  | .member o p _ => o.hasScoped || p.hasScoped
  | .array es => Expr.hasScopedList es
  | .object ps => Expr.hasScopedPairs ps
  | .function f => f.hasScoped
  | .conditional t a b => t.hasScoped || a.hasScoped || b.hasScoped
  | .assign t v => t.hasScoped || v.hasScoped
  | .await e => e.hasScoped

def Expr.hasScopedList : List Expr → Bool
  | [] => false
  | e :: es => e.hasScoped || Expr.hasScopedList es

def Expr.hasScopedOption : Option Expr → Bool
  | none => false
  | some e => e.hasScoped

def Expr.hasScopedPairs : List (String × Expr) → Bool
  | [] => false
  | (_, e) :: ps => e.hasScoped || Expr.hasScopedPairs ps

def Func.hasScoped : Func → Bool
  | ⟨_, _, body, _⟩ => Stmt.hasScopedList body

/-- The statement is or contains a scoped statement. -/
def Stmt.hasScoped : Stmt → Bool
  | .expr e => e.hasScoped
  | .declare _ i _ => Expr.hasScopedOption i
  | .destructure _ i => i.hasScoped
  | .block b => Stmt.hasScopedList b
  | .ifElse t a b => t.hasScoped || a.hasScoped || Stmt.hasScopedOption b
  | .whileLoop t b => t.hasScoped || b.hasScoped
  | .forLoop i t u b =>
      Stmt.hasScopedOption i || Expr.hasScopedOption t || Expr.hasScopedOption u || b.hasScoped
  | .forEach _ i b => i.hasScoped || b.hasScoped
  | .ret v => Expr.hasScopedOption v
  | .breakLoop => false
  | .continueLoop => false
  | .throw e => e.hasScoped
  | .tryCatch b _ h f => b.hasScoped || Stmt.hasScopedOption h || Stmt.hasScopedOption f
  | .function f => f.hasScoped
  | .holding _ => true

def Stmt.hasScopedList : List Stmt → Bool
  | [] => false
  | s :: ss => s.hasScoped || Stmt.hasScopedList ss

def Stmt.hasScopedOption : Option Stmt → Bool
  | none => false
  | some s => s.hasScoped

end

section Lowering

variable (c : Context)

mutual

/-- Code without scoped statements lowers to itself and takes no numbers. -/
theorem Expr.lower_eq_pure
    (inAsync : Bool) : (e : Expr) → e.hasScoped = false → e.lower c inAsync = pure e
  | .literal l, _ => by rw [Expr.lower]
  | .ident x, _ => by rw [Expr.lower]
  | .binary l op r, h => by
      rw [Expr.hasScoped, Bool.or_eq_false_iff] at h
      rw [Expr.lower, Expr.lower_eq_pure inAsync l h.1, pure_bind,
        Expr.lower_eq_pure inAsync r h.2, pure_bind]
  | .unary op e, h => by
      rw [Expr.hasScoped] at h
      rw [Expr.lower, Expr.lower_eq_pure inAsync e h, pure_bind]
  | .call f args, h => by
      rw [Expr.hasScoped, Bool.or_eq_false_iff] at h
      rw [Expr.lower, Expr.lower_eq_pure inAsync f h.1, pure_bind,
        Expr.lowerList_eq_pure inAsync args h.2, pure_bind]
  | .methodCall r m args, h => by
      rw [Expr.hasScoped, Bool.or_eq_false_iff] at h
      rw [Expr.lower, Expr.lower_eq_pure inAsync r h.1, pure_bind,
        Expr.lowerList_eq_pure inAsync args h.2, pure_bind]
  | .member o p computed, h => by
      rw [Expr.hasScoped, Bool.or_eq_false_iff] at h
      rw [Expr.lower, Expr.lower_eq_pure inAsync o h.1, pure_bind,
        Expr.lower_eq_pure inAsync p h.2, pure_bind]
  | .array es, h => by
      rw [Expr.hasScoped] at h
      rw [Expr.lower, Expr.lowerList_eq_pure inAsync es h, pure_bind]
  | .object ps, h => by
      rw [Expr.hasScoped] at h
      rw [Expr.lower, Expr.lowerPairs_eq_pure inAsync ps h, pure_bind]
  | .function f, h => by
      rw [Expr.hasScoped] at h
      rw [Expr.lower, Func.lower_eq_pure f h, pure_bind]
  | .conditional t a b, h => by
      rw [Expr.hasScoped, Bool.or_eq_false_iff, Bool.or_eq_false_iff] at h
      rw [Expr.lower, Expr.lower_eq_pure inAsync t h.1.1, pure_bind,
        Expr.lower_eq_pure inAsync a h.1.2, pure_bind, Expr.lower_eq_pure inAsync b h.2, pure_bind]
  | .assign t v, h => by
      rw [Expr.hasScoped, Bool.or_eq_false_iff] at h
      rw [Expr.lower, Expr.lower_eq_pure inAsync t h.1, pure_bind,
        Expr.lower_eq_pure inAsync v h.2, pure_bind]
  | .await e, h => by
      rw [Expr.hasScoped] at h
      rw [Expr.lower, Expr.lower_eq_pure inAsync e h, pure_bind]

theorem Expr.lowerList_eq_pure
    (inAsync : Bool) :
    (es : List Expr) → Expr.hasScopedList es = false → Expr.lowerList c inAsync es = pure es
  | [], _ => by rw [Expr.lowerList]
  | e :: es, h => by
      rw [Expr.hasScopedList, Bool.or_eq_false_iff] at h
      rw [Expr.lowerList, Expr.lower_eq_pure inAsync e h.1, pure_bind,
        Expr.lowerList_eq_pure inAsync es h.2, pure_bind]

theorem Expr.lowerOption_eq_pure
    (inAsync : Bool) :
    (e : Option Expr) → Expr.hasScopedOption e = false → Expr.lowerOption c inAsync e = pure e
  | none, _ => by rw [Expr.lowerOption]
  | some e, h => by
      rw [Expr.hasScopedOption] at h
      rw [Expr.lowerOption, Expr.lower_eq_pure inAsync e h, pure_bind]

theorem Expr.lowerPairs_eq_pure
    (inAsync : Bool) :
    (ps : List (String × Expr)) → Expr.hasScopedPairs ps = false →
      Expr.lowerPairs c inAsync ps = pure ps
  | [], _ => by rw [Expr.lowerPairs]
  | (k, e) :: ps, h => by
      rw [Expr.hasScopedPairs, Bool.or_eq_false_iff] at h
      rw [Expr.lowerPairs, Expr.lower_eq_pure inAsync e h.1, pure_bind,
        Expr.lowerPairs_eq_pure inAsync ps h.2, pure_bind]

theorem Func.lower_eq_pure : (f : Func) → f.hasScoped = false → f.lower c = pure f
  | ⟨name, params, body, isAsync⟩, h => by
      rw [Func.hasScoped] at h
      rw [Func.lower, Stmt.lowerList_eq_pure isAsync body h, pure_bind]

theorem Stmt.lower_eq_pure
    (inAsync : Bool) : (s : Stmt) → s.hasScoped = false → s.lower c inAsync = pure [s]
  | .expr e, h => by
      rw [Stmt.hasScoped] at h
      rw [Stmt.lower, Expr.lower_eq_pure inAsync e h, pure_bind]
  | .declare x i m, h => by
      rw [Stmt.hasScoped] at h
      rw [Stmt.lower, Expr.lowerOption_eq_pure inAsync i h, pure_bind]
  | .destructure p i, h => by
      rw [Stmt.hasScoped] at h
      rw [Stmt.lower, Expr.lower_eq_pure inAsync i h, pure_bind]
  | .block b, h => by
      rw [Stmt.hasScoped] at h
      rw [Stmt.lower, Stmt.lowerList_eq_pure inAsync b h, pure_bind]
  | .ifElse t a b, h => by
      rw [Stmt.hasScoped, Bool.or_eq_false_iff, Bool.or_eq_false_iff] at h
      rw [Stmt.lower, Expr.lower_eq_pure inAsync t h.1.1, pure_bind,
        Stmt.lower_eq_pure inAsync a h.1.2, pure_bind,
        Stmt.lowerOption_eq_pure inAsync b h.2, pure_bind, Stmt.ofList]
  | .whileLoop t b, h => by
      rw [Stmt.hasScoped, Bool.or_eq_false_iff] at h
      rw [Stmt.lower, Expr.lower_eq_pure inAsync t h.1, pure_bind,
        Stmt.lower_eq_pure inAsync b h.2, pure_bind, Stmt.ofList]
  | .forLoop i t u b, h => by
      rw [Stmt.hasScoped, Bool.or_eq_false_iff, Bool.or_eq_false_iff,
        Bool.or_eq_false_iff] at h
      rw [Stmt.lower, Stmt.lowerOption_eq_pure inAsync i h.1.1.1, pure_bind,
        Expr.lowerOption_eq_pure inAsync t h.1.1.2, pure_bind,
        Expr.lowerOption_eq_pure inAsync u h.1.2, pure_bind,
        Stmt.lower_eq_pure inAsync b h.2, pure_bind, Stmt.ofList]
  | .forEach x i b, h => by
      rw [Stmt.hasScoped, Bool.or_eq_false_iff] at h
      rw [Stmt.lower, Expr.lower_eq_pure inAsync i h.1, pure_bind,
        Stmt.lower_eq_pure inAsync b h.2, pure_bind, Stmt.ofList]
  | .ret v, h => by
      rw [Stmt.hasScoped] at h
      rw [Stmt.lower, Expr.lowerOption_eq_pure inAsync v h, pure_bind]
  | .breakLoop, _ => by rw [Stmt.lower]
  | .continueLoop, _ => by rw [Stmt.lower]
  | .throw e, h => by
      rw [Stmt.hasScoped] at h
      rw [Stmt.lower, Expr.lower_eq_pure inAsync e h, pure_bind]
  | .tryCatch b p g f, h => by
      rw [Stmt.hasScoped, Bool.or_eq_false_iff, Bool.or_eq_false_iff] at h
      rw [Stmt.lower, Stmt.lower_eq_pure inAsync b h.1.1, pure_bind,
        Stmt.lowerOption_eq_pure inAsync g h.1.2, pure_bind,
        Stmt.lowerOption_eq_pure inAsync f h.2, pure_bind, Stmt.ofList]
  | .function f, h => by
      rw [Stmt.hasScoped] at h
      rw [Stmt.lower, Func.lower_eq_pure f h, pure_bind]

theorem Stmt.lowerList_eq_pure
    (inAsync : Bool) :
    (ss : List Stmt) → Stmt.hasScopedList ss = false → Stmt.lowerList c inAsync ss = pure ss
  | [], _ => by rw [Stmt.lowerList]
  | s :: ss, h => by
      rw [Stmt.hasScopedList, Bool.or_eq_false_iff] at h
      rw [Stmt.lowerList, Stmt.lower_eq_pure inAsync s h.1, pure_bind,
        Stmt.lowerList_eq_pure inAsync ss h.2, pure_bind, List.singleton_append]

theorem Stmt.lowerOption_eq_pure
    (inAsync : Bool) :
    (s : Option Stmt) → Stmt.hasScopedOption s = false → Stmt.lowerOption c inAsync s = pure s
  | none, _ => by rw [Stmt.lowerOption]
  | some s, h => by
      rw [Stmt.hasScopedOption] at h
      rw [Stmt.lowerOption, Stmt.lower_eq_pure inAsync s h, pure_bind, Stmt.ofList]

end

/-! ## Items -/

/-- Check the bindings of resources, one after the other. -/
def Context.checkBindings (c : Context) : List Item → Except LoweringError Unit
  | [] => .ok ()
  | item :: items => do
      c.checkBinding item
      c.checkBindings items

/-- Items whose acquisitions hold no scoped statements are only checked. -/
theorem Item.lowerList_run_eq
    (inAsync : Bool) {items : List Item}
    (h : ∀ item ∈ items, item.acquire.hasScoped = false) (k : Nat) :
    (Item.lowerList c inAsync items).run k =
      (do
        c.checkBindings items
        return (items, k)) := by
  induction items with
  | nil =>
      rw [Item.lowerList]
      rfl
  | cons item items ih =>
      obtain ⟨acquire, binding, arity⟩ := item
      have hacquire : acquire.hasScoped = false := h _ List.mem_cons_self
      rw [Item.lowerList, Item.lower, Expr.lower_eq_pure c inAsync acquire hacquire]
      simp only [StateT.run_bind, Lowering.lift_run, bind_assoc, pure_bind, StateT.run_pure,
        ih fun item hitem => h item (List.mem_cons_of_mem _ hitem), Context.checkBindings]

theorem Stmt.lowerList_singleton
    (inAsync : Bool) (s : Stmt) : Stmt.lowerList c inAsync [s] = s.lower c inAsync := by
  rw [Stmt.lowerList, Stmt.lowerList]
  simp

/-- The expansions of several resources are the expansion of the first one around
those of the others. -/
theorem Context.expandItems_cons
    (isAsync : Bool) (n : Nat) (item : Item) (rest : List Item) (inner : List Stmt) :
    c.expandItems isAsync n (item :: rest) inner =
      (do
        let held ← c.expandItems isAsync (n + 1) rest inner
        c.expandItems isAsync n [item] held) := rfl

/-- The lowering of a scoped statement whose acquisitions hold no others. -/
theorem Scoped.lower_run_eq
    (inAsync isAsync : Bool) {items : List Item} (body : List Stmt) (k : Nat)
    (hstyle : c.conventions.expansion ≠ .native) (hitems : items ≠ [])
    (hfree : ∀ item ∈ items, item.acquire.hasScoped = false) :
    (Scoped.lower c inAsync ⟨items, body, isAsync⟩).run k =
      (do
        c.checkSuspension isAsync inAsync
        c.checkBindings items
        let q ← (Stmt.lowerList c inAsync body).run (k + items.length)
        let code ← c.expandItems isAsync k items q.1
        return (code, q.2)) := by
  have hempty : ¬items.isEmpty = true := by simpa using hitems
  have hexpand (body' : List Stmt) :
      c.expandScoped k ⟨items, body', isAsync⟩ = c.expandItems isAsync k items body' :=
    if_neg hstyle
  rw [Scoped.lower_run, if_neg hempty, Item.lowerList_run_eq c inAsync hfree]
  simp only [bind_assoc, pure_bind, hexpand]

end Lowering

/-! ## Nested statements -/

/-- A statement of several resources and the nested statement lower alike: to the
same statements and the same next number, or to the same error. -/
theorem Scoped.lower_cons_eq_lower_nested
    (c : Context) (inAsync isAsync : Bool) (item : Item) (rest : List Item) (body : List Stmt)
    (k : Nat) (hstyle : c.conventions.expansion ≠ .native) (hrest : rest ≠ [])
    (hfree : ∀ i ∈ item :: rest, i.acquire.hasScoped = false) :
    (Scoped.lower c inAsync ⟨item :: rest, body, isAsync⟩).run k =
      (Scoped.lower c inAsync ⟨[item], [.holding ⟨rest, body, isAsync⟩], isAsync⟩).run k := by
  have hfirst : ∀ i ∈ [item], i.acquire.hasScoped = false :=
    fun i hi => hfree i (List.mem_cons.mpr (.inl (List.mem_singleton.mp hi)))
  have hothers : ∀ i ∈ rest, i.acquire.hasScoped = false :=
    fun i hi => hfree i (List.mem_cons_of_mem item hi)
  have hnumber : k + (rest.length + 1) = k + 1 + rest.length := by omega
  rw [Scoped.lower_run_eq c inAsync isAsync body k hstyle (List.cons_ne_nil item rest) hfree,
    Scoped.lower_run_eq c inAsync isAsync _ k hstyle (List.cons_ne_nil item []) hfirst,
    Stmt.lowerList_singleton, Stmt.lower, List.length_singleton, List.length_cons, hnumber,
    Scoped.lower_run_eq c inAsync isAsync body (k + 1) hstyle hrest hothers]
  simp only [Context.checkBindings, bind_assoc, pure_bind, c.expandItems_cons isAsync k item rest]
  -- The nested statement checks suspension twice, with the same answer.
  cases c.checkSuspension isAsync inAsync with
  | error e => rfl
  | ok u => rfl

/-- Two resources around a statement of a third one, numbered from three on. -/
theorem Scoped.lower_cons_eq_lower_nested_of_two :
    ∃ code,
      (Scoped.lower ⟨.lua, "__"⟩ false
        ⟨[.new (.ident "first"), .bind (.new (.ident "second")) (.ofNames ["x", "y"])],
          [.holding ⟨[.new (.ident "third")], [.ret none], false⟩], false⟩).run 3 =
        .ok (code, 6) ∧
      (Scoped.lower ⟨.lua, "__"⟩ false
        ⟨[.new (.ident "first")],
          [.holding ⟨[.bind (.new (.ident "second")) (.ofNames ["x", "y"])],
            [.holding ⟨[.new (.ident "third")], [.ret none], false⟩], false⟩], false⟩).run 3 =
        .ok (code, 6) := by
  refine ⟨_, rfl, ?_⟩
  rw [← Scoped.lower_cons_eq_lower_nested ⟨.lua, "__"⟩ false false (.new (.ident "first"))
    [.bind (.new (.ident "second")) (.ofNames ["x", "y"])]
    [.holding ⟨[.new (.ident "third")], [.ret none], false⟩] 3 (by decide) (by decide)
    (by decide)]
  rfl

end Bracket
