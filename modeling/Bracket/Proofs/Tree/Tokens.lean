import Bracket.Proofs.Tree.Names

/-!
# Code read from left to right

The tokens of a piece of code are what one meets when reading it from left to
right, the fields of each statement in their order: variables that are used,
variables that come into scope, resources, and the beginning and end of blocks.
Names of methods, of members and of keys are not variables and do not count.

The scope of a variable reaches from where it is introduced to the end of the
innermost block around that place.  A declaration is met behind its initial
value, in which the variable is not yet visible.
-/

namespace Bracket

/-- What one meets when reading code from left to right. -/
inductive Token where
  /-- A variable is read or assigned. -/
  | use (name : String)
  /-- A variable is declared by a declaration of its own. -/
  | declare (name : String)
  /-- A catch clause names what it catches. -/
  | caught (name : String)
  /-- A name is introduced otherwise: a slot of a pattern, the variable of a loop,
  a parameter or a function. -/
  | binder (name : String)
  /-- A resource binds a name. -/
  | bound (name : String)
  /-- A scoped statement begins. -/
  | holding
  /-- A resource of a scoped statement begins. -/
  | resource
  | opens
  | closes
  deriving DecidableEq, Repr

namespace Token

/-- The variable that is used. -/
def used? : Token → Option String
  | .use x => some x
  | _ => none

/-- The name that comes into scope. -/
def introduced? : Token → Option String
  | .declare x | .caught x | .binder x | .bound x => some x
  | _ => none

/-- The name of a variable outside of the bindings of resources. -/
def ownName? : Token → Option String
  | .use x | .declare x | .caught x | .binder x => some x
  | _ => none

/-- Tokens with a block around them. -/
def block (ts : List Token) : List Token := .opens :: (ts ++ [.closes])

@[simp] theorem mem_block
    {t : Token} {ts : List Token} : t ∈ block ts ↔ t = .opens ∨ t ∈ ts ∨ t = .closes := by
  simp [block]

/-- The variables that are used, from left to right. -/
def uses (ts : List Token) : List String := ts.filterMap used?

@[simp] theorem uses_append (a b : List Token) : uses (a ++ b) = uses a ++ uses b :=
  List.filterMap_append

@[simp] theorem uses_block (ts : List Token) : uses (block ts) = uses ts := by
  simp [uses, block, List.filterMap_cons, used?]

/-- The names of variables outside of the bindings of resources. -/
def ownNames (ts : List Token) : List String := ts.filterMap ownName?

/-- The places where a name comes into scope. -/
def introductions (x : String) (ts : List Token) : List Token :=
  ts.filter fun t => t.introduced? = some x

@[simp] theorem introductions_nil (x : String) : introductions x [] = [] := rfl

@[simp] theorem introductions_cons
    (x : String) (t : Token) (ts : List Token) :
    introductions x (t :: ts) =
      if t.introduced? = some x then t :: introductions x ts else introductions x ts := by
  simp [introductions, List.filter_cons]

@[simp] theorem introductions_append
    (x : String) (a b : List Token) :
    introductions x (a ++ b) = introductions x a ++ introductions x b :=
  List.filter_append ..

@[simp] theorem introductions_block
    (x : String) (ts : List Token) : introductions x (block ts) = introductions x ts := by
  simp [introductions, block, introduced?]

/-- The name has no place in the code. -/
def Absent (x : String) (ts : List Token) : Prop :=
  ∀ t ∈ ts, t.ownName? ≠ some x ∧ t.introduced? ≠ some x

@[simp] theorem absent_nil (x : String) : Absent x [] := by
  simp [Absent]

@[simp] theorem absent_cons
    {x : String} {t : Token} {ts : List Token} :
    Absent x (t :: ts) ↔ (t.ownName? ≠ some x ∧ t.introduced? ≠ some x) ∧ Absent x ts :=
  List.forall_mem_cons

@[simp] theorem absent_append
    {x : String} {a b : List Token} : Absent x (a ++ b) ↔ Absent x a ∧ Absent x b :=
  List.forall_mem_append

@[simp] theorem absent_block
    {x : String} {ts : List Token} : Absent x (block ts) ↔ Absent x ts := by
  simp [block, ownName?, introduced?]

theorem absent_of_not_mem
    {x : String} {ts : List Token} (hts : ∀ t ∈ ts, t.ownName?.isSome)
    (hx : ∀ t ∈ ts, t.ownName? ≠ some x) : Absent x ts := by
  intro t ht
  have hsome := hts t ht
  have hne := hx t ht
  cases t <;> simp_all [ownName?, introduced?]

theorem Absent.introductions_eq
    {x : String} {ts : List Token} (h : Absent x ts) : introductions x ts = [] :=
  List.filter_eq_nil_iff.mpr fun t ht => by simpa using (h t ht).2

theorem Absent.not_mem_ownNames
    {x : String} {ts : List Token} (h : Absent x ts) : x ∉ ownNames ts := by
  intro hx
  obtain ⟨t, ht, hname⟩ := List.mem_filterMap.mp hx
  exact (h t ht).1 hname

/-- The name that a function literal has inside of itself, if it has one. -/
def ofLiteralName (name : String) : List Token := if name.isEmpty then [] else [.binder name]

@[simp] theorem mem_ofLiteralName
    {t : Token} {name : String} :
    t ∈ ofLiteralName name ↔ name.isEmpty = false ∧ t = .binder name := by
  cases hname : name.isEmpty <;> simp [ofLiteralName, hname]

end Token

mutual

/-- The tokens of an expression.  A function literal is a block around its own name. -/
def Expr.tokens : Expr → List Token
  | .literal _ => []
  | .ident x => [.use x]
  | .binary l _ r => l.tokens ++ r.tokens
  | .unary _ e => e.tokens
  | .call f args => f.tokens ++ Expr.tokensList args
  | .methodCall r _ args => r.tokens ++ Expr.tokensList args
  | .member o p _ => o.tokens ++ p.tokens
  | .array es => Expr.tokensList es
  | .object ps => Expr.tokensPairs ps
  | .function f => Token.block (Token.ofLiteralName f.name ++ f.tokens)
  | .conditional t a b => t.tokens ++ a.tokens ++ b.tokens
  | .assign t v => t.tokens ++ v.tokens
  | .await e => e.tokens

def Expr.tokensList : List Expr → List Token
  | [] => []
  | e :: es => e.tokens ++ Expr.tokensList es

def Expr.tokensOption : Option Expr → List Token
  | none => []
  | some e => e.tokens

def Expr.tokensPairs : List (String × Expr) → List Token
  | [] => []
  | (_, e) :: ps => e.tokens ++ Expr.tokensPairs ps

/-- The parameters and the body of a function are a block. -/
def Func.tokens : Func → List Token
  | ⟨_, params, body, _⟩ => Token.block (params.map .binder ++ Stmt.tokensList body)

/-- The tokens of a statement.  A statement in the place of a body is a block, also
where it is missing; the initialisation of a loop belongs to the block of the
loop. -/
def Stmt.tokens : Stmt → List Token
  | .expr e => e.tokens
  | .declare x i _ => Expr.tokensOption i ++ [.declare x]
  | .destructure p i => i.tokens ++ p.names.map .binder
  | .block b => Token.block (Stmt.tokensList b)
  | .ifElse t a b => t.tokens ++ Token.block a.tokens ++ Token.block (Stmt.tokensOption b)
  | .whileLoop t b => t.tokens ++ Token.block b.tokens
  | .forLoop i t u b =>
      Token.block (Stmt.tokensOption i ++ Expr.tokensOption t ++ Expr.tokensOption u
        ++ Token.block b.tokens)
  | .forEach x i b => i.tokens ++ Token.block ([.binder x] ++ b.tokens)
  | .ret v => Expr.tokensOption v
  | .breakLoop => []
  | .continueLoop => []
  | .throw e => e.tokens
  | .tryCatch b p h f =>
      Token.block b.tokens ++ Token.block (p.toList.map .caught ++ Stmt.tokensOption h)
        ++ Token.block (Stmt.tokensOption f)
  | .function f => [.binder f.name] ++ f.tokens
  | .holding s => s.tokens

def Stmt.tokensList : List Stmt → List Token
  | [] => []
  | s :: ss => s.tokens ++ Stmt.tokensList ss

def Stmt.tokensOption : Option Stmt → List Token
  | none => []
  | some s => s.tokens

/-- The tokens of a resource. -/
def Item.tokens : Item → List Token
  | ⟨acquire, binding, arity⟩ =>
      .resource :: (acquire.tokens ++ (Item.boundNames ⟨acquire, binding, arity⟩).map .bound)

def Item.tokensList : List Item → List Token
  | [] => []
  | i :: is => i.tokens ++ Item.tokensList is

/-- The resources and the body of a scoped statement are a block. -/
def Scoped.tokens : Scoped → List Token
  | ⟨items, body, _⟩ => .holding :: Token.block (Item.tokensList items ++ Stmt.tokensList body)

end

/-- The tokens of a program. -/
def Program.tokens (p : Program) : List Token := Stmt.tokensList p.body

@[simp] theorem Stmt.tokensList_append
    (a b : List Stmt) :
    Stmt.tokensList (a ++ b) = Stmt.tokensList a ++ Stmt.tokensList b := by
  induction a with
  | nil => simp [Stmt.tokensList]
  | cons s a ih => simp [Stmt.tokensList, ih]

theorem Stmt.tokensList_singleton (s : Stmt) : Stmt.tokensList [s] = s.tokens := by
  rw [Stmt.tokensList, Stmt.tokensList, List.append_nil]

theorem Item.tokens_eq
    (item : Item) :
    item.tokens = .resource :: (item.acquire.tokens ++ item.boundNames.map .bound) := by
  cases item
  rw [Item.tokens]

/-- Statements in the place of one have the same tokens, perhaps with a block around
them. -/
theorem Stmt.tokens_ofList
    (body : List Stmt) :
    (Stmt.ofList body).tokens = Stmt.tokensList body ∨
      (Stmt.ofList body).tokens = Token.block (Stmt.tokensList body) := by
  match body with
  | [] => exact .inr (by simp [Stmt.ofList, Stmt.tokens])
  | [s] => exact .inl (by simp [Stmt.ofList, Stmt.tokensList])
  | s :: t :: rest => exact .inr (by simp [Stmt.ofList, Stmt.tokens])

/-! ## Blocks and scopes -/

namespace Token

/-- No block that was open before is closed. -/
def StaysOpen (ts : List Token) : Prop :=
  ∀ part, part <+: ts → part.count .closes ≤ part.count .opens

/-- A variable is in scope behind the given tokens: it is introduced in a block that
is still open. -/
def Visible (x : String) (before : List Token) : Prop :=
  ∃ earlier t since,
    before = earlier ++ t :: since ∧ t.introduced? = some x ∧ StaysOpen since

/-- Every use of a variable lies in its scope. -/
def InScope (x : String) (ts : List Token) : Prop :=
  ∀ before after, ts = before ++ .use x :: after → Visible x before

/-- Every block that is opened is closed, and no other. -/
structure Balanced (ts : List Token) : Prop where
  staysOpen : StaysOpen ts
  count_eq : ts.count .closes = ts.count .opens

variable {a b ts : List Token} {x : String}

theorem StaysOpen.left
    (hts : StaysOpen (a ++ b)) : StaysOpen a :=
  fun part hpart => hts part (hpart.trans (List.prefix_append a b))

theorem StaysOpen.tail
    {t : Token} (ht : t.ownName?.isSome) (hts : StaysOpen (t :: ts)) : StaysOpen ts := by
  intro part hpart
  have hopens : t ≠ .opens := fun heq => nomatch heq ▸ ht
  have hcloses : t ≠ .closes := fun heq => nomatch heq ▸ ht
  have hcount := hts (t :: part) ((List.prefix_cons_inj t).mpr hpart)
  rwa [List.count_cons_of_ne hcloses, List.count_cons_of_ne hopens] at hcount

theorem StaysOpen.append
    (ha : StaysOpen a) (hb : StaysOpen b) : StaysOpen (a ++ b) := by
  intro part hpart
  rcases List.prefix_or_prefix_of_prefix hpart (List.prefix_append a b) with hinside | hbeyond
  · exact ha part hinside
  · obtain ⟨rest, rfl⟩ := hbeyond
    have hrest : rest <+: b := (List.prefix_append_right_inj a).mp hpart
    have hleft := ha a List.prefix_rfl
    have hright := hb rest hrest
    rw [List.count_append, List.count_append]
    omega

namespace Balanced

theorem of_ownNames
    (h : ∀ t ∈ ts, t.ownName?.isSome) : Balanced ts := by
  have hopens : .opens ∉ ts := fun hmem => nomatch h _ hmem
  have hcloses : .closes ∉ ts := fun hmem => nomatch h _ hmem
  constructor
  · intro part hpart
    have hnone : part.count .closes = 0 :=
      List.count_eq_zero.mpr fun hmem => hcloses (hpart.subset hmem)
    omega
  · rw [List.count_eq_zero.mpr hopens, List.count_eq_zero.mpr hcloses]

theorem append
    (ha : Balanced a) (hb : Balanced b) : Balanced (a ++ b) := by
  constructor
  · exact ha.staysOpen.append hb.staysOpen
  · rw [List.count_append, List.count_append, ha.count_eq, hb.count_eq]

theorem nil : Balanced [] := of_ownNames (by simp)

theorem cons
    {t : Token} (ht : t.ownName?.isSome) (h : Balanced ts) : Balanced (t :: ts) :=
  append (of_ownNames (by simpa using ht) : Balanced [t]) h

theorem block
    (h : Balanced ts) : Balanced (block ts) := by
  have hopen : StaysOpen (.opens :: ts) := by
    refine StaysOpen.append (a := [.opens]) ?_ h.staysOpen
    intro part hpart
    have hsub := hpart.sublist.count_le .closes
    simpa using Nat.le_trans hsub (Nat.zero_le _)
  constructor
  · intro part hpart
    rcases List.prefix_concat_iff.mp (by simpa [Token.block] using hpart :
        part <+: (.opens :: ts) ++ [.closes]) with rfl | hinside
    · simp [h.count_eq]
    · exact hopen part hinside
  · simp [Token.block, h.count_eq]

end Balanced

namespace InScope

theorem of_not_used
    (h : .use x ∉ ts) : InScope x ts := by
  rintro before after rfl
  exact absurd (List.mem_append_right before List.mem_cons_self) h

theorem of_absent (h : Absent x ts) : InScope x ts :=
  of_not_used fun hused => (h _ hused).1 rfl

/-- More code in front keeps what is in scope. -/
theorem append
    (ha : InScope x a) (hb : InScope x b) : InScope x (a ++ b) := by
  intro before after heq
  rcases List.append_eq_append_iff.mp heq with ⟨between, rfl, hb'⟩ | ⟨between, ha', hb'⟩
  · obtain ⟨earlier, t, since, rfl, ht, hsince⟩ := hb between after hb'
    exact ⟨a ++ earlier, t, since, by rw [List.append_assoc], ht, hsince⟩
  · cases between with
    | nil =>
        rw [List.append_nil] at ha'
        obtain ⟨earlier, t, since, hnil, -, -⟩ := hb [] after (by simpa using hb'.symm)
        simp at hnil
    | cons t between =>
        rw [List.cons_append, List.cons.injEq] at hb'
        obtain ⟨rfl, -⟩ := hb'
        exact ha before between ha'

theorem block (h : InScope x ts) : InScope x (Token.block ts) := by
  have hopens : InScope x [.opens] := of_not_used (by simp)
  have hcloses : InScope x [.closes] := of_not_used (by simp)
  exact hopens.append (h.append hcloses)

/-- A variable that is introduced before its first use is in scope until the block
ends. -/
theorem of_introduced
    {t : Token} (ha : .use x ∉ a) (ht : t.introduced? = some x) (hb : StaysOpen b) :
    InScope x (a ++ t :: b) := by
  intro before after heq
  rcases List.append_eq_append_iff.mp heq with ⟨between, rfl, hb'⟩ | ⟨between, ha', hb'⟩
  · cases between with
    | nil =>
        rw [List.nil_append, List.cons.injEq] at hb'
        rw [hb'.1] at ht
        exact nomatch ht
    | cons u since =>
        rw [List.cons_append, List.cons.injEq] at hb'
        obtain ⟨rfl, rfl⟩ := hb'
        exact ⟨a, t, since, rfl, ht, hb.left⟩
  · cases between with
    | nil =>
        rw [List.nil_append, List.cons.injEq] at hb'
        rw [← hb'.1] at ht
        exact nomatch ht
    | cons u between =>
        rw [List.cons_append, List.cons.injEq] at hb'
        rw [ha', ← hb'.1] at ha
        exact absurd (List.mem_append_right before List.mem_cons_self) ha

end InScope

end Token

end Bracket
