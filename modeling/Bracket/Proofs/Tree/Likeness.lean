import Bracket.Tree.Likeness

/-!
# Likeness as a relation

The rules by which two trees are alike, one for each kind of node: their parts are
alike, and all that is no hint is equal.  A literal is compared by its value, so a
tree with a NaN in it is not alike to itself.

The main statement of this module is that the comparison `alike` decides the
relation.  What respects likeness is then shown by induction on the rules.
-/

namespace Bracket

/-! ## Equality of patterns -/

namespace Pattern

mutual

theorem same_iff : (p q : Pattern) → (p.same q = true ↔ p = q)
  | .name x, .name y => by simp [same]
  | .tuple ps, .tuple qs => by simp [same, sameList_iff ps qs]
  | .name _, .tuple _ | .tuple _, .name _ => by simp [same]

theorem sameList_iff : (ps qs : List Pattern) → (sameList ps qs = true ↔ ps = qs)
  | [], [] => by simp [sameList]
  | p :: ps, q :: qs => by simp [sameList, same_iff p q, sameList_iff ps qs]
  | [], _ :: _ | _ :: _, [] => by simp [sameList]

end

theorem sameOption_iff : (p q : Option Pattern) → (sameOption p q = true ↔ p = q)
  | none, none => by simp [sameOption]
  | some p, some q => by simp [sameOption, same_iff p q]
  | none, some _ | some _, none => by simp [sameOption]

end Pattern

/-! ## The relation -/

mutual

/-- Two expressions differ at most in hints. -/
inductive Expr.Alike : Expr → Expr → Prop where
  | literal {a b : Literal} (h : a.same b = true) : Expr.Alike (.literal a) (.literal b)
  | ident (x : String) : Expr.Alike (.ident x) (.ident x)
  | binary {l l' r r' : Expr} (op : BinaryOp) (hl : Expr.Alike l l') (hr : Expr.Alike r r') :
      Expr.Alike (.binary l op r) (.binary l' op r')
  | unary {e e' : Expr} (op : UnaryOp) (he : Expr.Alike e e') :
      Expr.Alike (.unary op e) (.unary op e')
  | call {f f' : Expr} {args args' : List Expr} (hf : Expr.Alike f f')
      (hargs : Expr.AlikeList args args') : Expr.Alike (.call f args) (.call f' args')
  | methodCall {r r' : Expr} {args args' : List Expr} (m : String) (hr : Expr.Alike r r')
      (hargs : Expr.AlikeList args args') :
      Expr.Alike (.methodCall r m args) (.methodCall r' m args')
  /-- Brackets count unless they are around a literal name. -/
  | member {o o' p p' : Expr} {c c' : Bool} (ho : Expr.Alike o o') (hp : Expr.Alike p p')
      (hc : (c && !p.isString) = (c' && !p'.isString)) :
      Expr.Alike (.member o p c) (.member o' p' c')
  | array {es es' : List Expr} (hes : Expr.AlikeList es es') :
      Expr.Alike (.array es) (.array es')
  | object {ps ps' : List (String × Expr)} (hps : Expr.AlikePairs ps ps') :
      Expr.Alike (.object ps) (.object ps')
  | function {f f' : Func} (hf : Func.Alike f f') : Expr.Alike (.function f) (.function f')
  | conditional {t t' a a' b b' : Expr} (ht : Expr.Alike t t') (ha : Expr.Alike a a')
      (hb : Expr.Alike b b') : Expr.Alike (.conditional t a b) (.conditional t' a' b')
  | assign {t t' v v' : Expr} (ht : Expr.Alike t t') (hv : Expr.Alike v v') :
      Expr.Alike (.assign t v) (.assign t' v')
  | await {e e' : Expr} (he : Expr.Alike e e') : Expr.Alike (.await e) (.await e')

inductive Expr.AlikeList : List Expr → List Expr → Prop where
  | nil : Expr.AlikeList [] []
  | cons {e e' : Expr} {es es' : List Expr} (he : Expr.Alike e e')
      (hes : Expr.AlikeList es es') : Expr.AlikeList (e :: es) (e' :: es')

inductive Expr.AlikeOption : Option Expr → Option Expr → Prop where
  | none : Expr.AlikeOption none none
  | some {e e' : Expr} (he : Expr.Alike e e') : Expr.AlikeOption (some e) (some e')

inductive Expr.AlikePairs : List (String × Expr) → List (String × Expr) → Prop where
  | nil : Expr.AlikePairs [] []
  | cons {e e' : Expr} {ps ps' : List (String × Expr)} (key : String) (he : Expr.Alike e e')
      (hps : Expr.AlikePairs ps ps') : Expr.AlikePairs ((key, e) :: ps) ((key, e') :: ps')

/-- Two functions differ at most in hints. -/
inductive Func.Alike : Func → Func → Prop where
  | mk {body body' : List Stmt} (name : String) (params : List String) (isAsync : Bool)
      (hbody : Stmt.AlikeList body body') :
      Func.Alike ⟨name, params, body, isAsync⟩ ⟨name, params, body', isAsync⟩

/-- Two statements differ at most in hints. -/
inductive Stmt.Alike : Stmt → Stmt → Prop where
  | expr {e e' : Expr} (he : Expr.Alike e e') : Stmt.Alike (.expr e) (.expr e')
  /-- Whether the variable may be assigned again does not count. -/
  | declare {i i' : Option Expr} (x : String) (m m' : Bool) (hi : Expr.AlikeOption i i') :
      Stmt.Alike (.declare x i m) (.declare x i' m')
  | destructure {i i' : Expr} (p : Pattern) (hi : Expr.Alike i i') :
      Stmt.Alike (.destructure p i) (.destructure p i')
  | block {b b' : List Stmt} (hb : Stmt.AlikeList b b') : Stmt.Alike (.block b) (.block b')
  | ifElse {t t' : Expr} {a a' : Stmt} {b b' : Option Stmt} (ht : Expr.Alike t t')
      (ha : Stmt.Alike a a') (hb : Stmt.AlikeOption b b') :
      Stmt.Alike (.ifElse t a b) (.ifElse t' a' b')
  | whileLoop {t t' : Expr} {b b' : Stmt} (ht : Expr.Alike t t') (hb : Stmt.Alike b b') :
      Stmt.Alike (.whileLoop t b) (.whileLoop t' b')
  | forLoop {i i' : Option Stmt} {t t' u u' : Option Expr} {b b' : Stmt}
      (hi : Stmt.AlikeOption i i') (ht : Expr.AlikeOption t t') (hu : Expr.AlikeOption u u')
      (hb : Stmt.Alike b b') : Stmt.Alike (.forLoop i t u b) (.forLoop i' t' u' b')
  | forEach {i i' : Expr} {b b' : Stmt} (x : String) (hi : Expr.Alike i i')
      (hb : Stmt.Alike b b') : Stmt.Alike (.forEach x i b) (.forEach x i' b')
  | ret {v v' : Option Expr} (hv : Expr.AlikeOption v v') : Stmt.Alike (.ret v) (.ret v')
  | breakLoop : Stmt.Alike .breakLoop .breakLoop
  | continueLoop : Stmt.Alike .continueLoop .continueLoop
  | throw {e e' : Expr} (he : Expr.Alike e e') : Stmt.Alike (.throw e) (.throw e')
  | tryCatch {b b' : Stmt} {h h' f f' : Option Stmt} (p : Option String)
      (hb : Stmt.Alike b b') (hh : Stmt.AlikeOption h h') (hf : Stmt.AlikeOption f f') :
      Stmt.Alike (.tryCatch b p h f) (.tryCatch b' p h' f')
  | function {f f' : Func} (hf : Func.Alike f f') : Stmt.Alike (.function f) (.function f')
  | holding {s s' : Scoped} (hs : Scoped.Alike s s') : Stmt.Alike (.holding s) (.holding s')

inductive Stmt.AlikeList : List Stmt → List Stmt → Prop where
  | nil : Stmt.AlikeList [] []
  | cons {s s' : Stmt} {ss ss' : List Stmt} (hs : Stmt.Alike s s')
      (hss : Stmt.AlikeList ss ss') : Stmt.AlikeList (s :: ss) (s' :: ss')

inductive Stmt.AlikeOption : Option Stmt → Option Stmt → Prop where
  | none : Stmt.AlikeOption none none
  | some {s s' : Stmt} (hs : Stmt.Alike s s') : Stmt.AlikeOption (some s) (some s')

/-- Two resources differ at most in hints. -/
inductive Item.Alike : Item → Item → Prop where
  | mk {acquire acquire' : Expr} (binding : Option Pattern) (arity : Option UInt64)
      (hacquire : Expr.Alike acquire acquire') :
      Item.Alike ⟨acquire, binding, arity⟩ ⟨acquire', binding, arity⟩

inductive Item.AlikeList : List Item → List Item → Prop where
  | nil : Item.AlikeList [] []
  | cons {i i' : Item} {is is' : List Item} (hi : Item.Alike i i')
      (his : Item.AlikeList is is') : Item.AlikeList (i :: is) (i' :: is')

/-- Two scoped statements differ at most in hints. -/
inductive Scoped.Alike : Scoped → Scoped → Prop where
  | mk {items items' : List Item} {body body' : List Stmt} (isAsync : Bool)
      (hitems : Item.AlikeList items items') (hbody : Stmt.AlikeList body body') :
      Scoped.Alike ⟨items, body, isAsync⟩ ⟨items', body', isAsync⟩

end

/-! ## The comparison decides the relation -/

mutual

theorem Expr.alike_of_true :
    {a b : Expr} → a.alike b = true → Expr.Alike a b
  | .literal _, .literal _, h => .literal h
  | .ident x, .ident y, h => by
      obtain rfl : x = y := eq_of_beq h
      exact .ident x
  | .binary l op r, .binary l' op' r', h => by
      simp only [Expr.alike, Bool.and_eq_true, beq_iff_eq] at h
      obtain ⟨⟨rfl, hl⟩, hr⟩ := h
      exact .binary op (Expr.alike_of_true hl) (Expr.alike_of_true hr)
  | .unary op e, .unary op' e', h => by
      simp only [Expr.alike, Bool.and_eq_true, beq_iff_eq] at h
      obtain ⟨rfl, he⟩ := h
      exact .unary op (Expr.alike_of_true he)
  | .call f args, .call f' args', h => by
      simp only [Expr.alike, Bool.and_eq_true] at h
      exact .call (Expr.alike_of_true h.1) (Expr.alikeList_of_true h.2)
  | .methodCall r m args, .methodCall r' m' args', h => by
      simp only [Expr.alike, Bool.and_eq_true, beq_iff_eq] at h
      obtain ⟨⟨rfl, hr⟩, hargs⟩ := h
      exact .methodCall m (Expr.alike_of_true hr) (Expr.alikeList_of_true hargs)
  | .member o p c, .member o' p' c', h => by
      simp only [Expr.alike, Bool.and_eq_true, beq_iff_eq] at h
      obtain ⟨⟨ho, hp⟩, hc⟩ := h
      exact .member (Expr.alike_of_true ho) (Expr.alike_of_true hp) hc
  | .array es, .array es', h => .array (Expr.alikeList_of_true h)
  | .object ps, .object ps', h => .object (Expr.alikePairs_of_true h)
  | .function f, .function f', h => .function (Func.alike_of_true h)
  | .conditional t c a, .conditional t' c' a', h => by
      simp only [Expr.alike, Bool.and_eq_true] at h
      obtain ⟨⟨ht, hc⟩, ha⟩ := h
      exact .conditional (Expr.alike_of_true ht) (Expr.alike_of_true hc)
        (Expr.alike_of_true ha)
  | .assign t v, .assign t' v', h => by
      simp only [Expr.alike, Bool.and_eq_true] at h
      exact .assign (Expr.alike_of_true h.1) (Expr.alike_of_true h.2)
  | .await e, .await e', h => .await (Expr.alike_of_true h)
termination_by structural a => a

theorem Expr.alikeList_of_true :
    {as bs : List Expr} → Expr.alikeList as bs = true → Expr.AlikeList as bs
  | [], [], _ => .nil
  | _ :: _, _ :: _, h => by
      simp only [Expr.alikeList, Bool.and_eq_true] at h
      exact .cons (Expr.alike_of_true h.1) (Expr.alikeList_of_true h.2)
termination_by structural a => a

theorem Expr.alikeOption_of_true :
    {a b : Option Expr} → Expr.alikeOption a b = true → Expr.AlikeOption a b
  | none, none, _ => .none
  | some _, some _, h => .some (Expr.alike_of_true h)
termination_by structural a => a

theorem Expr.alikePairs_of_true :
    {as bs : List (String × Expr)} → Expr.alikePairs as bs = true → Expr.AlikePairs as bs
  | [], [], _ => .nil
  | (k, _) :: _, (k', _) :: _, h => by
      simp only [Expr.alikePairs, Bool.and_eq_true, beq_iff_eq] at h
      obtain ⟨⟨rfl, he⟩, hps⟩ := h
      exact .cons k (Expr.alike_of_true he) (Expr.alikePairs_of_true hps)
termination_by structural a => a

theorem Func.alike_of_true :
    {f g : Func} → f.alike g = true → Func.Alike f g
  | ⟨name, params, _, isAsync⟩, ⟨_, _, _, _⟩, h => by
      simp only [Func.alike, Bool.and_eq_true, beq_iff_eq] at h
      obtain ⟨⟨⟨rfl, rfl⟩, rfl⟩, hbody⟩ := h
      exact .mk name params isAsync (Stmt.alikeList_of_true hbody)
termination_by structural a => a

theorem Stmt.alike_of_true :
    {a b : Stmt} → a.alike b = true → Stmt.Alike a b
  | .expr e, .expr e', h => .expr (Expr.alike_of_true h)
  | .declare x i m, .declare x' i' m', h => by
      simp only [Stmt.alike, Bool.and_eq_true, beq_iff_eq] at h
      obtain ⟨rfl, hi⟩ := h
      exact .declare x m m' (Expr.alikeOption_of_true hi)
  | .destructure p i, .destructure p' i', h => by
      simp only [Stmt.alike, Bool.and_eq_true, Pattern.same_iff] at h
      obtain ⟨rfl, hi⟩ := h
      exact .destructure p (Expr.alike_of_true hi)
  | .block body, .block body', h => .block (Stmt.alikeList_of_true h)
  | .ifElse t c a, .ifElse t' c' a', h => by
      simp only [Stmt.alike, Bool.and_eq_true] at h
      obtain ⟨⟨ht, hc⟩, ha⟩ := h
      exact .ifElse (Expr.alike_of_true ht) (Stmt.alike_of_true hc)
        (Stmt.alikeOption_of_true ha)
  | .whileLoop t body, .whileLoop t' body', h => by
      simp only [Stmt.alike, Bool.and_eq_true] at h
      exact .whileLoop (Expr.alike_of_true h.1) (Stmt.alike_of_true h.2)
  | .forLoop i t u body, .forLoop i' t' u' body', h => by
      simp only [Stmt.alike, Bool.and_eq_true] at h
      obtain ⟨⟨⟨hi, ht⟩, hu⟩, hbody⟩ := h
      exact .forLoop (Stmt.alikeOption_of_true hi) (Expr.alikeOption_of_true ht)
        (Expr.alikeOption_of_true hu) (Stmt.alike_of_true hbody)
  | .forEach x i body, .forEach x' i' body', h => by
      simp only [Stmt.alike, Bool.and_eq_true, beq_iff_eq] at h
      obtain ⟨⟨rfl, hi⟩, hbody⟩ := h
      exact .forEach x (Expr.alike_of_true hi) (Stmt.alike_of_true hbody)
  | .ret v, .ret v', h => .ret (Expr.alikeOption_of_true h)
  | .breakLoop, .breakLoop, _ => .breakLoop
  | .continueLoop, .continueLoop, _ => .continueLoop
  | .throw e, .throw e', h => .throw (Expr.alike_of_true h)
  | .tryCatch body p c f, .tryCatch body' p' c' f', h => by
      simp only [Stmt.alike, Bool.and_eq_true, beq_iff_eq] at h
      obtain ⟨⟨⟨rfl, hbody⟩, hc⟩, hf⟩ := h
      exact .tryCatch p (Stmt.alike_of_true hbody) (Stmt.alikeOption_of_true hc)
        (Stmt.alikeOption_of_true hf)
  | .function f, .function f', h => .function (Func.alike_of_true h)
  | .holding s, .holding s', h => .holding (Scoped.alike_of_true h)
termination_by structural a => a

theorem Stmt.alikeList_of_true :
    {as bs : List Stmt} → Stmt.alikeList as bs = true → Stmt.AlikeList as bs
  | [], [], _ => .nil
  | _ :: _, _ :: _, h => by
      simp only [Stmt.alikeList, Bool.and_eq_true] at h
      exact .cons (Stmt.alike_of_true h.1) (Stmt.alikeList_of_true h.2)
termination_by structural a => a

theorem Stmt.alikeOption_of_true :
    {a b : Option Stmt} → Stmt.alikeOption a b = true → Stmt.AlikeOption a b
  | none, none, _ => .none
  | some _, some _, h => .some (Stmt.alike_of_true h)
termination_by structural a => a

theorem Item.alike_of_true :
    {i j : Item} → i.alike j = true → Item.Alike i j
  | ⟨_, binding, arity⟩, ⟨_, _, _⟩, h => by
      simp only [Item.alike, Bool.and_eq_true, beq_iff_eq, Pattern.sameOption_iff] at h
      obtain ⟨⟨rfl, rfl⟩, hacquire⟩ := h
      exact .mk binding arity (Expr.alike_of_true hacquire)
termination_by structural a => a

theorem Item.alikeList_of_true :
    {as bs : List Item} → Item.alikeList as bs = true → Item.AlikeList as bs
  | [], [], _ => .nil
  | _ :: _, _ :: _, h => by
      simp only [Item.alikeList, Bool.and_eq_true] at h
      exact .cons (Item.alike_of_true h.1) (Item.alikeList_of_true h.2)
termination_by structural a => a

theorem Scoped.alike_of_true :
    {s t : Scoped} → s.alike t = true → Scoped.Alike s t
  | ⟨_, _, isAsync⟩, ⟨_, _, _⟩, h => by
      simp only [Scoped.alike, Bool.and_eq_true, beq_iff_eq] at h
      obtain ⟨⟨rfl, hitems⟩, hbody⟩ := h
      exact .mk isAsync (Item.alikeList_of_true hitems) (Stmt.alikeList_of_true hbody)
termination_by structural a => a

end

mutual

theorem Expr.Alike.eq_true : {a b : Expr} → Expr.Alike a b → a.alike b = true
  | _, _, .literal h => h
  | _, _, .ident x => by simp [Expr.alike]
  | _, _, .binary op hl hr => by simp [Expr.alike, hl.eq_true, hr.eq_true]
  | _, _, .unary op he => by simp [Expr.alike, he.eq_true]
  | _, _, .call hf hargs => by simp [Expr.alike, hf.eq_true, hargs.eq_true]
  | _, _, .methodCall m hr hargs => by simp [Expr.alike, hr.eq_true, hargs.eq_true]
  | _, _, .member ho hp hc => by simp [Expr.alike, ho.eq_true, hp.eq_true, hc]
  | _, _, .array hes => hes.eq_true
  | _, _, .object hps => hps.eq_true
  | _, _, .function hf => hf.eq_true
  | _, _, .conditional ht ha hb => by simp [Expr.alike, ht.eq_true, ha.eq_true, hb.eq_true]
  | _, _, .assign ht hv => by simp [Expr.alike, ht.eq_true, hv.eq_true]
  | _, _, .await he => he.eq_true

theorem Expr.AlikeList.eq_true :
    {as bs : List Expr} → Expr.AlikeList as bs → Expr.alikeList as bs = true
  | _, _, .nil => rfl
  | _, _, .cons he hes => by simp [Expr.alikeList, he.eq_true, hes.eq_true]

theorem Expr.AlikeOption.eq_true :
    {a b : Option Expr} → Expr.AlikeOption a b → Expr.alikeOption a b = true
  | _, _, .none => rfl
  | _, _, .some he => he.eq_true

theorem Expr.AlikePairs.eq_true :
    {as bs : List (String × Expr)} → Expr.AlikePairs as bs → Expr.alikePairs as bs = true
  | _, _, .nil => rfl
  | _, _, .cons key he hps => by simp [Expr.alikePairs, he.eq_true, hps.eq_true]

theorem Func.Alike.eq_true : {f g : Func} → Func.Alike f g → f.alike g = true
  | _, _, .mk name params isAsync hbody => by simp [Func.alike, hbody.eq_true]

theorem Stmt.Alike.eq_true : {a b : Stmt} → Stmt.Alike a b → a.alike b = true
  | _, _, .expr he => he.eq_true
  | _, _, .declare x m m' hi => by simp [Stmt.alike, hi.eq_true]
  | _, _, .destructure p hi => by simp [Stmt.alike, Pattern.same_iff, hi.eq_true]
  | _, _, .block hb => hb.eq_true
  | _, _, .ifElse ht ha hb => by simp [Stmt.alike, ht.eq_true, ha.eq_true, hb.eq_true]
  | _, _, .whileLoop ht hb => by simp [Stmt.alike, ht.eq_true, hb.eq_true]
  | _, _, .forLoop hi ht hu hb => by
      simp [Stmt.alike, hi.eq_true, ht.eq_true, hu.eq_true, hb.eq_true]
  | _, _, .forEach x hi hb => by simp [Stmt.alike, hi.eq_true, hb.eq_true]
  | _, _, .ret hv => hv.eq_true
  | _, _, .breakLoop => rfl
  | _, _, .continueLoop => rfl
  | _, _, .throw he => he.eq_true
  | _, _, .tryCatch p hb hh hf => by simp [Stmt.alike, hb.eq_true, hh.eq_true, hf.eq_true]
  | _, _, .function hf => hf.eq_true
  | _, _, .holding hs => hs.eq_true

theorem Stmt.AlikeList.eq_true :
    {as bs : List Stmt} → Stmt.AlikeList as bs → Stmt.alikeList as bs = true
  | _, _, .nil => rfl
  | _, _, .cons hs hss => by simp [Stmt.alikeList, hs.eq_true, hss.eq_true]

theorem Stmt.AlikeOption.eq_true :
    {a b : Option Stmt} → Stmt.AlikeOption a b → Stmt.alikeOption a b = true
  | _, _, .none => rfl
  | _, _, .some hs => hs.eq_true

theorem Item.Alike.eq_true : {i j : Item} → Item.Alike i j → i.alike j = true
  | _, _, .mk binding arity hacquire => by
      simp [Item.alike, Pattern.sameOption_iff, hacquire.eq_true]

theorem Item.AlikeList.eq_true :
    {as bs : List Item} → Item.AlikeList as bs → Item.alikeList as bs = true
  | _, _, .nil => rfl
  | _, _, .cons hi his => by simp [Item.alikeList, hi.eq_true, his.eq_true]

theorem Scoped.Alike.eq_true : {s t : Scoped} → Scoped.Alike s t → s.alike t = true
  | _, _, .mk isAsync hitems hbody => by simp [Scoped.alike, hitems.eq_true, hbody.eq_true]

end

/-- The comparison of programs decides the relation. -/
theorem Program.alike_iff
    {p q : Program} : p.alike q = true ↔ Stmt.AlikeList p.body q.body := by
  constructor
  · exact Stmt.alikeList_of_true
  · exact Stmt.AlikeList.eq_true

/-! ## Parts that alike trees share -/

/-- Of two alike expressions both or neither are literal texts. -/
theorem Expr.Alike.isString_eq
    {a b : Expr} (h : Expr.Alike a b) : a.isString = b.isString := by
  cases h with
  | @literal a b h =>
      match a, b, h with
      | .null, .null, _ | .bool _, .bool _, _ | .number _, .number _, _
      | .string _, .string _, _ => rfl
  | _ => rfl

theorem Item.AlikeList.length_eq :
    {is js : List Item} → Item.AlikeList is js → is.length = js.length
  | _, _, .nil => rfl
  | _, _, .cons _ his => congrArg (· + 1) his.length_eq

/-! ## Lists of statements -/

namespace Stmt.AlikeList

theorem append
    {as as' bs bs' : List Stmt} (ha : Stmt.AlikeList as as') (hb : Stmt.AlikeList bs bs') :
    Stmt.AlikeList (as ++ bs) (as' ++ bs') :=
  match ha with
  | .nil => hb
  | .cons hs hss => .cons hs (hss.append hb)

theorem singleton {s s' : Stmt} (h : Stmt.Alike s s') : Stmt.AlikeList [s] [s'] := .cons h .nil

/-- Alike lists in the place of one statement. -/
theorem ofList
    {as as' : List Stmt} (h : Stmt.AlikeList as as') :
    Stmt.Alike (Stmt.ofList as) (Stmt.ofList as') := by
  cases h with
  | nil => exact .block .nil
  | cons hs hss =>
      cases hss with
      | nil => exact hs
      | cons ht htt => exact .block (.cons hs (.cons ht htt))

end Stmt.AlikeList

end Bracket
