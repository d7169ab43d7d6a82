import Bracket.Proofs.Tree.Names

/-!
# Renaming of variables

The tree with a function applied to every variable of it: where it is used, where it is
declared and where it is a parameter, the same places that `names` lists.  Names of
methods, of members, of keys and of function literals stay as they are.
-/

namespace Bracket

mutual

/-- The pattern with its names renamed. -/
def Pattern.rename (f : String → String) : Pattern → Pattern
  | .name x => .name (f x)
  | .tuple slots => .tuple (Pattern.renameList f slots)

def Pattern.renameList (f : String → String) : List Pattern → List Pattern
  | [] => []
  | p :: ps => p.rename f :: Pattern.renameList f ps

end

mutual

/-- The expression with its variables renamed. -/
def Expr.rename (f : String → String) : Expr → Expr
  | .literal l => .literal l
  | .ident x => .ident (f x)
  | .binary l op r => .binary (l.rename f) op (r.rename f)
  | .unary op e => .unary op (e.rename f)
  | .call g args => .call (g.rename f) (Expr.renameList f args)
  | .methodCall r m args => .methodCall (r.rename f) m (Expr.renameList f args)
  | .member o p computed => .member (o.rename f) (p.rename f) computed
  | .array es => .array (Expr.renameList f es)
  | .object ps => .object (Expr.renamePairs f ps)
  | .function g => .function (g.rename f)
  | .conditional t a b => .conditional (t.rename f) (a.rename f) (b.rename f)
  | .assign t v => .assign (t.rename f) (v.rename f)
  | .await e => .await (e.rename f)

def Expr.renameList (f : String → String) : List Expr → List Expr
  | [] => []
  | e :: es => e.rename f :: Expr.renameList f es

def Expr.renameOption (f : String → String) : Option Expr → Option Expr
  | none => none
  | some e => some (e.rename f)

def Expr.renamePairs (f : String → String) : List (String × Expr) → List (String × Expr)
  | [] => []
  | (k, e) :: ps => (k, e.rename f) :: Expr.renamePairs f ps

/-- The function with its parameters and the variables of its body renamed. -/
def Func.rename (f : String → String) : Func → Func
  | ⟨name, params, body, isAsync⟩ => ⟨name, params.map f, Stmt.renameList f body, isAsync⟩

/-- The statement with its variables renamed.  A function statement declares its name. -/
def Stmt.rename (f : String → String) : Stmt → Stmt
  | .expr e => .expr (e.rename f)
  | .declare x i m => .declare (f x) (Expr.renameOption f i) m
  | .destructure p i => .destructure (p.rename f) (i.rename f)
  | .block b => .block (Stmt.renameList f b)
  | .ifElse t a b => .ifElse (t.rename f) (a.rename f) (Stmt.renameOption f b)
  | .whileLoop t b => .whileLoop (t.rename f) (b.rename f)
  | .forLoop i t u b =>
      .forLoop (Stmt.renameOption f i) (Expr.renameOption f t) (Expr.renameOption f u)
        (b.rename f)
  | .forEach x i b => .forEach (f x) (i.rename f) (b.rename f)
  | .ret v => .ret (Expr.renameOption f v)
  | .breakLoop => .breakLoop
  | .continueLoop => .continueLoop
  | .throw e => .throw (e.rename f)
  | .tryCatch b p h g =>
      .tryCatch (b.rename f) (p.map f) (Stmt.renameOption f h) (Stmt.renameOption f g)
  | .function ⟨name, params, body, isAsync⟩ =>
      .function ⟨f name, params.map f, Stmt.renameList f body, isAsync⟩
  | .holding s => .holding (s.rename f)

def Stmt.renameList (f : String → String) : List Stmt → List Stmt
  | [] => []
  | s :: ss => s.rename f :: Stmt.renameList f ss

def Stmt.renameOption (f : String → String) : Option Stmt → Option Stmt
  | none => none
  | some s => some (s.rename f)

/-- The resource with its acquisition and its binding renamed. -/
def Item.rename (f : String → String) : Item → Item
  | ⟨acquire, binding, arity⟩ => ⟨acquire.rename f, binding.map (Pattern.rename f), arity⟩

def Item.renameList (f : String → String) : List Item → List Item
  | [] => []
  | i :: is => i.rename f :: Item.renameList f is

/-- The scoped statement with its variables renamed. -/
def Scoped.rename (f : String → String) : Scoped → Scoped
  | ⟨items, body, isAsync⟩ => ⟨Item.renameList f items, Stmt.renameList f body, isAsync⟩

end

/-- The program with its variables renamed. -/
def Program.rename (f : String → String) (p : Program) : Program := ⟨Stmt.renameList f p.body⟩

section

variable (f : String → String)

@[simp] theorem Stmt.renameList_append
    (a b : List Stmt) :
    Stmt.renameList f (a ++ b) = Stmt.renameList f a ++ Stmt.renameList f b := by
  induction a with
  | nil => rfl
  | cons s a ih => rw [List.cons_append, Stmt.renameList, ih, Stmt.renameList, List.cons_append]

@[simp] theorem Stmt.rename_ofList
    (body : List Stmt) :
    (Stmt.ofList body).rename f = Stmt.ofList (Stmt.renameList f body) := by
  match body with
  | [] => rfl
  | [s] => rfl
  | s :: t :: rest => rfl

theorem Item.rename_eq
    (item : Item) :
    item.rename f =
      ⟨item.acquire.rename f, item.binding.map (Pattern.rename f), item.entryArity⟩ := by
  cases item
  rfl

end

/-! ## Names that stay -/

section

variable {f : String → String}

mutual

/-- A pattern whose names stay is the same pattern. -/
theorem Pattern.rename_eq_self :
    (p : Pattern) → (∀ x ∈ p.names, f x = x) → p.rename f = p
  | .name x, h => by
      have hx : f x = x := h x (List.mem_singleton.mpr rfl)
      rw [Pattern.rename, hx]
  | .tuple slots, h => by
      rw [Pattern.rename, Pattern.renameList_eq_self slots h]

theorem Pattern.renameList_eq_self :
    (ps : List Pattern) → (∀ x ∈ Pattern.namesList ps, f x = x) → Pattern.renameList f ps = ps
  | [], _ => rfl
  | p :: ps, h => by
      obtain ⟨hp, hps⟩ := List.forall_mem_append.mp h
      rw [Pattern.renameList, Pattern.rename_eq_self p hp, Pattern.renameList_eq_self ps hps]

end

theorem Item.map_rename_binding
    {item : Item} (h : ∀ x ∈ item.boundNames, f x = x) :
    item.binding.map (Pattern.rename f) = item.binding := by
  rw [Item.boundNames] at h
  cases hbinding : item.binding with
  | none => rfl
  | some p =>
      rw [hbinding] at h
      rw [Option.map_some, Pattern.rename_eq_self p h]

end

end Bracket
