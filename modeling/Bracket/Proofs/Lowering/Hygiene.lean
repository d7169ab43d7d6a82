import Bracket.Proofs.Lowering.Tokens
import Bracket.Target.Language

/-!
# Generated names do not clash

Where no name of a program is reserved, the names that lowering generates are
identifiers, each of them is introduced once and used in its scope only, and the
managers are numbered from zero to the number of resources.

The invariant is `Context.Hygienic`: which numbers code may use in generated names,
and what holds of these names.  Code one after the other keeps it if the numbers of
the parts are apart, and so does a resource around code that does not use its number.
-/

namespace Bracket

/-! ## Generated names are identifiers -/

theorem Text.isSpelled_append
    {start part : Char → Bool} {a b : List Char} (ha : isSpelled start part a = true)
    (hb : b.all part = true) : isSpelled start part (a ++ b) = true := by
  cases a with
  | nil => exact nomatch ha
  | cons d rest =>
      rw [isSpelled, Bool.and_eq_true] at ha
      rw [List.cons_append, isSpelled, Bool.and_eq_true, List.all_append, Bool.and_eq_true]
      exact ⟨ha.1, ha.2, hb⟩

theorem Text.isNumeric_of_isDigit
    {d : Char} (h : d.isDigit = true) : isNumeric d = true := by
  have hrange : 48 ≤ d.toNat ∧ d.toNat ≤ 57 := by
    simpa [Char.isDigit, UInt32.le_iff_toNat_le] using h
  exact List.any_eq_true.mpr ⟨(0x30, 0x39), List.mem_cons_self, decide_eq_true hrange⟩

theorem Role.all_isNamePart_text
    (role : Role) : role.text.toList.all Text.isNamePart = true := by
  cases role <;> decide

/-- A prefix that is a name on its own begins generated names that are. -/
theorem Context.isIdentifier_temp
    {c : Context} (h : Text.isIdentifier c.tempPrefix = true) (role : Role) (n : Nat) :
    Text.isIdentifier (c.temp role n) = true := by
  have hdigits : (Nat.toDigits 10 n).all Text.isNamePart = true := by
    rw [List.all_eq_true]
    intro d hd
    have hdigit := Nat.isDigit_of_mem_toDigits (by decide) (by decide) hd
    simp [Text.isNamePart, Text.isNumeric_of_isDigit hdigit]
  rw [Text.isIdentifier, temp, String.toList_append, String.toList_append, Nat.toList_repr]
  exact Text.isSpelled_append (Text.isSpelled_append h role.all_isNamePart_text) hdigits

namespace Context

variable {c : Context} {n : Nat} {ns ms : List Nat}

@[simp] theorem temp_eq_temp_iff
    {role role' : Role} {m : Nat} : c.temp role n = c.temp role' m ↔ role = role' ∧ n = m :=
  ⟨c.temp_injective, fun ⟨hrole, hn⟩ => by rw [hrole, hn]⟩

theorem ne_temp_of_not_isReserved
    {x : String} (hx : ¬c.isReserved x) (role : Role) (n : Nat) : x ≠ c.temp role n :=
  fun heq => hx (heq ▸ c.isReserved_temp role n)

/-! ## The invariant -/

/-- Generated names in the code have the given numbers only; each of them is introduced
once, by a declaration or a catch clause, and used in its scope. -/
structure Hygienic (c : Context) (ns : List Nat) (ts : List Token) : Prop where
  absent : ∀ role, ∀ n ∉ ns, Token.Absent (c.temp role n) ts
  once : ∀ role n, Token.Absent (c.temp role n) ts ∨
    Token.introductions (c.temp role n) ts = [.declare (c.temp role n)] ∨
    Token.introductions (c.temp role n) ts = [.caught (c.temp role n)]
  inScope : ∀ role n, Token.InScope (c.temp role n) ts
  manager : ∀ n ∈ ns, .declare (c.temp .manager n) ∈ ts
  balanced : Token.Balanced ts

namespace Hygienic

variable {a b ts : List Token}

theorem of_absent
    (habsent : ∀ role n, Token.Absent (c.temp role n) ts) (hbalanced : Token.Balanced ts) :
    c.Hygienic [] ts where
  absent role n _ := habsent role n
  once role n := .inl (habsent role n)
  inScope role n := .of_absent (habsent role n)
  manager _ hn := nomatch hn
  balanced := hbalanced

theorem congr
    (h : c.Hygienic ns ts) (hmem : ∀ n, n ∈ ns ↔ n ∈ ms) : c.Hygienic ms ts where
  absent role n hn := h.absent role n (mt (hmem n).mp hn)
  once := h.once
  inScope := h.inScope
  manager n hn := h.manager n ((hmem n).mpr hn)
  balanced := h.balanced

theorem append
    (ha : c.Hygienic ns a) (hb : c.Hygienic ms b) (hdisjoint : ∀ n ∈ ns, n ∉ ms) :
    c.Hygienic (ns ++ ms) (a ++ b) where
  absent role n hn := by
    rw [List.mem_append, not_or] at hn
    exact Token.absent_append.mpr ⟨ha.absent role n hn.1, hb.absent role n hn.2⟩
  once role n := by
    by_cases hn : n ∈ ns
    · have hright := hb.absent role n (hdisjoint n hn)
      simpa [hright, hright.introductions_eq] using ha.once role n
    · have hleft := ha.absent role n hn
      simpa [hleft, hleft.introductions_eq] using hb.once role n
  inScope role n := (ha.inScope role n).append (hb.inScope role n)
  manager n hn := by
    rcases List.mem_append.mp hn with hn | hn
    · exact List.mem_append_left b (ha.manager n hn)
    · exact List.mem_append_right a (hb.manager n hn)
  balanced := ha.balanced.append hb.balanced

theorem block
    (h : c.Hygienic ns ts) : c.Hygienic ns (Token.block ts) where
  absent role n hn := Token.absent_block.mpr (h.absent role n hn)
  once role n := by
    simpa using h.once role n
  inScope role n := (h.inScope role n).block
  manager n hn := Token.mem_block.mpr (.inr (.inl (h.manager n hn)))
  balanced := h.balanced.block

end Hygienic

/-! ## Names of other resources -/

section

variable {kept : Bool} {names : List String} {binds : List Token} {m : Nat}

theorem Scaffold.absent
    {t : Token} (ht : c.Scaffold n t) (hm : m ≠ n) (role : Role) :
    t.ownName? ≠ some (c.temp role m) ∧ t.introduced? ≠ some (c.temp role m) := by
  cases ht with
  | opens | closes => simp [Token.ownName?, Token.introduced?]
  | use | declare | caught => simp [Token.ownName?, Token.introduced?, hm.symm]
  | protect => simp [Token.ownName?, Token.introduced?, (c.temp_ne_pcall role m).symm]
  | unpack => simp [Token.ownName?, Token.introduced?, (c.temp_ne_table role m).symm]

/-- Bindings have no generated name but that of the entry value. -/
theorem Binds.absent
    (hbinds : c.Binds n kept names binds) (hnames : ∀ x ∈ names, ¬c.isReserved x) {role : Role}
    (hvalue : kept = true → role = .value → m ≠ n) : Token.Absent (c.temp role m) binds := by
  intro t ht
  rcases hbinds t ht with ⟨hkept, rfl⟩ | ⟨x, hx, hname⟩
  · have hne : Role.value = role → n ≠ m := fun hrole => (hvalue hkept hrole.symm).symm
    simpa [Token.ownName?, Token.introduced?] using hne
  · have hne : x ≠ c.temp role m := ne_temp_of_not_isReserved (hnames x hx) role m
    rcases hname with rfl | rfl <;> simp [Token.ownName?, Token.introduced?, hne]

theorem Binds.introductions_eq
    (hbinds : c.Binds n kept names binds) (hnames : ∀ x ∈ names, ¬c.isReserved x) (role : Role) :
    Token.introductions (c.temp role m) binds = [] := by
  refine List.filter_eq_nil_iff.mpr fun t ht => ?_
  rcases hbinds t ht with ⟨-, rfl⟩ | ⟨x, hx, hname⟩
  · simp [Token.introduced?]
  · have hne : x ≠ c.temp role m := ne_temp_of_not_isReserved (hnames x hx) role m
    rcases hname with rfl | rfl <;> simp [Token.introduced?, hne]

theorem Binds.balanced
    (hbinds : c.Binds n kept names binds) : Token.Balanced binds := by
  refine .of_ownNames fun t ht => ?_
  rcases hbinds t ht with ⟨-, rfl⟩ | ⟨x, -, rfl | rfl⟩ <;> rfl

/-- A resource adds no generated names of another number. -/
theorem heldTokens_of_ne
    (hbinds : c.Binds n kept names binds) (hnames : ∀ x ∈ names, ¬c.isReserved x)
    (hm : m ≠ n) (role : Role) (resumes : Bool) (rest : List Token) :
    ∃ before after, c.heldTokens n kept resumes (binds ++ rest) = before ++ rest ++ after ∧
      Token.Absent (c.temp role m) before ∧ Token.Absent (c.temp role m) after := by
  obtain ⟨before, after, heq, hbefore, hafter⟩ := c.heldTokens_eq_append n kept resumes
  refine ⟨before ++ binds, after, ?_, ?_, ?_⟩
  · rw [heq, List.append_assoc before binds rest]
  · rw [Token.absent_append]
    exact ⟨fun t ht => (hbefore t ht).absent hm role, hbinds.absent hnames fun _ _ => hm⟩
  · exact fun t ht => (hafter t ht).absent hm role

end

/-! ## The names of one resource -/

/-- Code that resource `n` can hold: it has no generated names of this number, but it may
use the entry value if it is kept. -/
structure Holdable (c : Context) (n : Nat) (kept : Bool) (inner : List Token) : Prop where
  absent : ∀ role, (kept = true → role ≠ .value) → Token.Absent (c.temp role n) inner
  introductions_eq : ∀ role, Token.introductions (c.temp role n) inner = []
  balanced : Token.Balanced inner

section

variable {kept resumes : Bool} {inner : List Token}

theorem onErrorTokens_balanced : Token.Balanced (c.onErrorTokens n) := by
  have huses : Token.Balanced
      [.use (c.temp .failed n), .use (c.temp .manager n), .use (c.temp .error n)] :=
    .of_ownNames (by simp [Token.ownName?])
  have hthrow : Token.Balanced [.use (c.temp .error n)] := .cons rfl .nil
  exact ((huses.append hthrow.block.block).append Token.Balanced.nil.block).block

theorem onLeaveTokens_balanced : Token.Balanced (c.onLeaveTokens n) := by
  have htest : Token.Balanced [.use (c.temp .failed n)] := .cons rfl .nil
  have hleave : Token.Balanced [.use (c.temp .manager n)] := .cons rfl .nil
  exact ((htest.append hleave.block.block).append Token.Balanced.nil.block).block

theorem onSuccessTokens_balanced : Token.Balanced (c.onSuccessTokens n resumes) := by
  have htest : Token.Balanced [.use (c.temp .outcome n)] := .cons rfl .nil
  have hunpack : Token.Balanced [.use "table", .use (c.temp .outcome n)] := htest.cons rfl
  refine (Token.Balanced.cons rfl ?_).block
  cases resumes with
  | false => exact .nil
  | true => exact (htest.append hunpack.block.block).append Token.Balanced.nil.block

theorem onFailureTokens_balanced : Token.Balanced (c.onFailureTokens n) := by
  have hthrow : Token.Balanced [.use (c.temp .outcome n)] := .cons rfl .nil
  have huses : Token.Balanced [.use (c.temp .manager n), .use (c.temp .outcome n)] :=
    hthrow.cons rfl
  exact (huses.append hthrow.block.block).append Token.Balanced.nil.block

theorem regionTokens_balanced
    (h : Token.Balanced inner) : Token.Balanced (c.regionTokens n resumes inner) := by
  unfold regionTokens
  split
  · have houtcome : Token.Balanced [.declare (c.temp .outcome n), .use (c.temp .outcome n)] :=
      .of_ownNames (by simp [Token.ownName?])
    exact (((Token.Balanced.cons rfl h.block.block).append houtcome).append
      onSuccessTokens_balanced.block).append onFailureTokens_balanced.block
  · have hcatch := Token.Balanced.cons (t := .caught (c.temp .error n)) rfl
      (onErrorTokens_balanced (c := c) (n := n))
    exact ((Token.Balanced.cons rfl h.block.block).append hcatch.block).append
      onLeaveTokens_balanced.block

theorem heldTokens_balanced
    (h : Token.Balanced inner) : Token.Balanced (c.heldTokens n kept resumes inner) := by
  have henter : Token.Balanced (c.enterTokens n kept) :=
    .of_ownNames (by cases kept <;> simp [enterTokens, Token.ownName?])
  exact henter.append (regionTokens_balanced h)

/-- The expansion of a resource has a generated name in the role. -/
def hasRole (c : Context) (kept : Bool) : Role → Bool
  | .manager => true
  | .value => kept
  | .failed | .error => c.conventions.expansion ≠ .protectedCall
  | .outcome => c.conventions.expansion = .protectedCall

/-- The token that introduces a generated name. -/
def introduction (c : Context) (n : Nat) : Role → Token
  | .error => .caught (c.temp .error n)
  | role => .declare (c.temp role n)

theorem Holdable.absent_heldTokens
    (h : c.Holdable n kept inner) {role : Role} (hrole : c.hasRole kept role = false) :
    Token.Absent (c.temp role n) (c.heldTokens n kept resumes inner) := by
  have hinner : Token.Absent (c.temp role n) inner := by
    refine h.absent role fun hkept hvalue => ?_
    rw [hvalue, hasRole, hkept] at hrole
    exact nomatch hrole
  have hpcall := (c.temp_ne_pcall role n).symm
  have htable := (c.temp_ne_table role n).symm
  cases role with
  | manager => exact nomatch hrole
  | value =>
      cases hrole
      unfold heldTokens regionTokens
      split
      · cases resumes <;>
          simp [enterTokens, onSuccessTokens, onFailureTokens, Token.ownName?,
            Token.introduced?, hinner, hpcall, htable]
      · simp [enterTokens, onErrorTokens, onLeaveTokens, Token.ownName?, Token.introduced?,
          hinner]
  | failed | error =>
      have hstyle : c.conventions.expansion = .protectedCall := by simpa [hasRole] using hrole
      cases kept <;> cases resumes <;>
        simp [heldTokens, enterTokens, regionTokens, hstyle, onSuccessTokens, onFailureTokens,
          Token.ownName?, Token.introduced?, hinner, hpcall, htable]
  | outcome =>
      have hstyle : c.conventions.expansion ≠ .protectedCall := by simpa [hasRole] using hrole
      cases kept <;>
        simp [heldTokens, enterTokens, regionTokens, hstyle, onErrorTokens, onLeaveTokens,
          Token.ownName?, Token.introduced?, hinner]

/-- Around the code that it holds, a resource introduces its outcome, or a flag and an
error. -/
theorem introductions_regionTokens
    (x : String) :
    Token.introductions x (c.regionTokens n resumes inner) =
      if c.conventions.expansion = .protectedCall then
        Token.introductions x (inner ++ [.declare (c.temp .outcome n)])
      else
        Token.introductions x
          ([.declare (c.temp .failed n)] ++ inner ++ [.caught (c.temp .error n)]) := by
  unfold regionTokens
  split
  · cases resumes <;> simp [onSuccessTokens, onFailureTokens, Token.introduced?]
  · simp [onErrorTokens, onLeaveTokens, Token.introduced?]

theorem Holdable.introductions_heldTokens
    (h : c.Holdable n kept inner) {role : Role} (hrole : c.hasRole kept role = true) :
    Token.introductions (c.temp role n) (c.heldTokens n kept resumes inner) =
      [c.introduction n role] := by
  have hinner := h.introductions_eq role
  rw [heldTokens, Token.introductions_append, introductions_regionTokens]
  cases role with
  | manager =>
      cases kept <;> simp [introduction, enterTokens, Token.introduced?, hinner]
  | value =>
      cases hrole
      simp [introduction, enterTokens, Token.introduced?, hinner]
  | failed | error =>
      have hstyle : c.conventions.expansion ≠ .protectedCall := by simpa [hasRole] using hrole
      cases kept <;> simp [introduction, enterTokens, Token.introduced?, hinner, hstyle]
  | outcome =>
      have hstyle : c.conventions.expansion = .protectedCall := by simpa [hasRole] using hrole
      cases kept <;> simp [introduction, enterTokens, Token.introduced?, hinner, hstyle]

/-- The generated names of a resource are used in their scope. -/
theorem Holdable.inScope
    (h : c.Holdable n kept inner) {role : Role} (hrole : c.hasRole kept role = true) :
    Token.InScope (c.temp role n) (c.heldTokens n kept resumes inner) := by
  have hregion : Token.Balanced (c.regionTokens n resumes inner) :=
    regionTokens_balanced h.balanced
  cases role with
  | manager =>
      have hheld : Token.Balanced (c.heldTokens n kept resumes inner) :=
        heldTokens_balanced h.balanced
      exact .of_introduced (a := []) (by simp) rfl (hheld.staysOpen.tail rfl)
  | value =>
      cases hrole
      exact .of_introduced (a := [.declare (c.temp .manager n), .use (c.temp .manager n)])
        (by simp) rfl hregion.staysOpen
  | failed =>
      have hstyle : c.conventions.expansion ≠ .protectedCall := by simpa [hasRole] using hrole
      rw [regionTokens, if_neg hstyle] at hregion
      rw [heldTokens, regionTokens, if_neg hstyle]
      have henter : Token.use (c.temp .failed n) ∉ c.enterTokens n kept := by
        cases kept <;> simp [enterTokens]
      exact .of_introduced henter rfl (hregion.staysOpen.tail rfl)
  | error =>
      -- The name is in scope in the catch clause and has no place elsewhere.
      have hstyle : c.conventions.expansion ≠ .protectedCall := by simpa [hasRole] using hrole
      have hinner : Token.Absent (c.temp .error n) inner := h.absent .error (by simp)
      have henter : Token.Absent (c.temp .error n) (c.enterTokens n kept) := by
        cases kept <;> simp [enterTokens, Token.ownName?, Token.introduced?]
      have hguarded : Token.Absent (c.temp .error n)
          ([.declare (c.temp .failed n)] ++ Token.block (Token.block inner)) := by
        simp [Token.ownName?, Token.introduced?, hinner]
      have hcatch : Token.InScope (c.temp .error n)
          (Token.block (.caught (c.temp .error n) :: c.onErrorTokens n)) :=
        (Token.InScope.of_introduced (a := []) (by simp) rfl
          onErrorTokens_balanced.staysOpen).block
      have hleave : Token.Absent (c.temp .error n) (Token.block (c.onLeaveTokens n)) := by
        simp [onLeaveTokens, Token.ownName?, Token.introduced?]
      rw [heldTokens, regionTokens, if_neg hstyle]
      exact (Token.InScope.of_absent henter).append
        (((Token.InScope.of_absent hguarded).append hcatch).append (.of_absent hleave))
  | outcome =>
      have hstyle : c.conventions.expansion = .protectedCall := by simpa [hasRole] using hrole
      have hinner : Token.Absent (c.temp .outcome n) inner := h.absent .outcome (by simp)
      have hcall : Token.Absent (c.temp .outcome n)
          (c.enterTokens n kept ++ ([.use "pcall"] ++ Token.block (Token.block inner))) := by
        cases kept <;>
          simp [enterTokens, Token.ownName?, Token.introduced?, hinner,
            (c.temp_ne_pcall .outcome n).symm]
      have hbehind : Token.Balanced
          (.use (c.temp .outcome n) ::
            (Token.block (c.onSuccessTokens n resumes) ++ Token.block (c.onFailureTokens n))) :=
        .cons rfl (onSuccessTokens_balanced.block.append onFailureTokens_balanced.block)
      have hscope := Token.InScope.of_introduced (t := .declare (c.temp .outcome n))
        (fun hmem => (hcall _ hmem).1 rfl) rfl hbehind.staysOpen
      rw [heldTokens, regionTokens, if_pos hstyle]
      simpa only [List.append_assoc, List.cons_append, List.nil_append] using hscope

end

/-- A resource around code that does not use its number. -/
theorem Hygienic.held
    {kept : Bool} {names : List String} {binds rest : List Token}
    (hrest : c.Hygienic ms rest) (hn : n ∉ ms) (hnames : ∀ x ∈ names, ¬c.isReserved x)
    (hbinds : c.Binds n kept names binds) (resumes : Bool) :
    c.Hygienic (n :: ms) (c.heldTokens n kept resumes (binds ++ rest)) := by
  have hheld : c.Holdable n kept (binds ++ rest) :=
    { absent := fun role hrole => by
        have hvalue : kept = true → role = .value → n ≠ n :=
          fun hkept hvalue => absurd hvalue (hrole hkept)
        exact Token.absent_append.mpr ⟨hbinds.absent hnames hvalue, hrest.absent role n hn⟩
      introductions_eq := fun role => by
        rw [Token.introductions_append, hbinds.introductions_eq hnames role,
          (hrest.absent role n hn).introductions_eq, List.append_nil]
      balanced := hbinds.balanced.append hrest.balanced }
  constructor
  · intro role m hm
    rw [List.mem_cons, not_or] at hm
    obtain ⟨before, after, heq, hbefore, hafter⟩ :=
      heldTokens_of_ne hbinds hnames hm.1 role resumes rest
    rw [heq, Token.absent_append, Token.absent_append]
    exact ⟨⟨hbefore, hrest.absent role m hm.2⟩, hafter⟩
  · intro role m
    by_cases hm : m = n
    · rw [hm]
      cases hrole : c.hasRole kept role with
      | false => exact .inl (hheld.absent_heldTokens hrole)
      | true =>
          right
          rw [hheld.introductions_heldTokens hrole]
          cases role <;> simp [introduction]
    · obtain ⟨before, after, heq, hbefore, hafter⟩ :=
        heldTokens_of_ne hbinds hnames hm role resumes rest
      rw [heq]
      simpa [hbefore, hafter, hbefore.introductions_eq, hafter.introductions_eq]
        using hrest.once role m
  · intro role m
    by_cases hm : m = n
    · rw [hm]
      cases hrole : c.hasRole kept role with
      | false => exact .of_absent (hheld.absent_heldTokens hrole)
      | true => exact hheld.inScope hrole
    · obtain ⟨before, after, heq, hbefore, hafter⟩ :=
        heldTokens_of_ne hbinds hnames hm role resumes rest
      rw [heq]
      exact ((Token.InScope.of_absent hbefore).append (hrest.inScope role m)).append
        (.of_absent hafter)
  · intro m hm
    obtain ⟨before, after, heq, -, -⟩ := c.heldTokens_eq_append n kept resumes
    rcases List.mem_cons.mp hm with rfl | hm
    · simp [heldTokens, enterTokens]
    · rw [heq]
      simp [hrest.manager m hm]
  · exact heldTokens_balanced hheld.balanced

/-! ## Lowered code -/

/-- The numbers that lowering takes are as many as there are resources. -/
theorem Lowers.length_eq
    {source target : List Token} (h : c.Lowers ns source target) :
    ns.length = source.count .resource := by
  induction h with
  | keep hts =>
      refine (List.count_eq_zero.mpr fun hmem => ?_).symm
      exact nomatch hts _ hmem
  | append _ _ iha ihb => rw [List.length_append, List.count_append, iha, ihb]
  | block _ ih | holding _ ih => simp [Token.block, ih]
  | enclose _ ih => exact ih
  | @resource _ _ _ _ _ names _ _ _ _ _ _ _ _ _ ihacquire ihrest =>
      have hbound : (names.map Token.bound).count .resource = 0 := by
        simp [List.count_eq_zero]
      simp [ihacquire, ihrest, hbound]

/-- No resource of lowered code binds a reserved name. -/
theorem Lowers.bound_not_reserved
    {source target : List Token} {x : String} (h : c.Lowers ns source target)
    (hx : .bound x ∈ source) : ¬c.isReserved x := by
  induction h with
  | keep hts => exact nomatch hts _ hx
  | append _ _ iha ihb => exact (List.mem_append.mp hx).elim iha ihb
  | block _ ih | holding _ ih => exact ih (by simpa using hx)
  | enclose _ ih => exact ih hx
  | resource _ _ hnames _ ihacquire ihrest =>
      simp only [List.cons_append, List.mem_cons, reduceCtorEq, List.mem_append, List.mem_map,
        Token.bound.injEq, exists_eq_right, false_or] at hx
      rcases hx with (hx | hx) | hx
      · exact ihacquire hx
      · exact hnames x hx
      · exact ihrest hx

/-- Lowering keeps generated names apart where the source has none. -/
theorem Lowers.hygienic
    {source target : List Token} (h : c.Lowers ns source target) (hns : ns.Nodup)
    (hplain : ∀ t ∈ source, ∀ x, t.ownName? = some x → ¬c.isReserved x) :
    c.Hygienic ns target := by
  induction h with
  | @keep ts hts =>
      refine .of_absent (fun role n => ?_) (.of_ownNames hts)
      refine Token.absent_of_not_mem hts fun t ht hname => ?_
      exact ne_temp_of_not_isReserved (hplain t ht _ hname) role n rfl
  | append _ _ iha ihb =>
      obtain ⟨hns, hms, hapart⟩ := List.nodup_append.mp hns
      have ha := iha hns fun t ht => hplain t (List.mem_append_left _ ht)
      have hb := ihb hms fun t ht => hplain t (List.mem_append_right _ ht)
      exact ha.append hb fun n hn hm => hapart n hn n hm rfl
  | block _ ih =>
      exact (ih hns fun t ht => hplain t (by simp [ht])).block
  | enclose _ ih => exact (ih hns hplain).block
  | holding _ ih => exact ih hns fun t ht => hplain t (by simp [ht])
  | @resource n ns ms _ resumes _ _ _ _ _ _ _ _ hnames hbinds ihacquire ihrest =>
      obtain ⟨hn, hns⟩ := List.nodup_cons.mp hns
      rw [List.mem_append, not_or] at hn
      obtain ⟨hns, hms, hapart⟩ := List.nodup_append.mp hns
      have hacquire := ihacquire hns fun t ht => hplain t (by simp [ht])
      have hrest := ihrest hms fun t ht => hplain t (by simp [ht])
      have hheld := hrest.held hn.2 hnames hbinds resumes
      have hdisjoint : ∀ m ∈ ns, m ∉ n :: ms := by
        intro m hm hmem
        rcases List.mem_cons.mp hmem with rfl | hmem
        · exact hn.1 hm
        · exact hapart m hm m hmem rfl
      refine (hacquire.append hheld hdisjoint).congr fun m => ?_
      simp only [List.mem_append, List.mem_cons]
      exact or_left_comm

end Context

/-- The names that lowering generates for a program without reserved names of its own:
they are identifiers, each that occurs is introduced once, by a declaration or a catch
clause, and used in its scope only; the managers are numbered from zero to the number of
resources; and no resource binds such a name. -/
theorem Program.lower_hygienic
    (s : Settings) (c : Conventions) (p q : Program)
    (hidentifier : Text.isIdentifier s.tempPrefix = true) (hstyle : c.expansion ≠ .native)
    (hplain : ∀ x ∈ Token.ownNames p.tokens, ¬(s.context c).isReserved x)
    (h : p.lowerWith s c = .ok q) :
    let temp := (s.context c).temp
    (∀ role n, Text.isIdentifier (temp role n) = true) ∧
    (∀ role n, temp role n ∈ Token.ownNames q.tokens →
      Token.introductions (temp role n) q.tokens = [.declare (temp role n)] ∨
      Token.introductions (temp role n) q.tokens = [.caught (temp role n)]) ∧
    (∀ n, temp .manager n ∈ Token.ownNames q.tokens ↔ n < p.tokens.count .resource) ∧
    (∀ role n, Token.InScope (temp role n) q.tokens) ∧
    ∀ x, .bound x ∈ p.tokens → ∀ role n, x ≠ temp role n := by
  obtain ⟨j, -, ns, hperm, hlowers⟩ := lowered_of_lower (c := s.context c) hstyle h
  rw [Nat.sub_zero] at hperm
  have hnodup : ns.Nodup := hperm.nodup_iff.mpr List.nodup_range'
  have hhygienic : (s.context c).Hygienic ns q.tokens :=
    hlowers.hygienic hnodup fun t ht x hx => hplain x (List.mem_filterMap.mpr ⟨t, ht, hx⟩)
  have hnumbers (n : Nat) : n ∈ ns ↔ n < p.tokens.count .resource := by
    have hlength : p.tokens.count .resource = j := by
      rw [← hlowers.length_eq, hperm.length_eq, List.length_range']
    rw [hperm.mem_iff, hlength]
    simp
  refine ⟨?_, ?_, ?_, hhygienic.inScope, ?_⟩
  · exact Context.isIdentifier_temp (c := s.context c) hidentifier
  · intro role n hn
    exact (hhygienic.once role n).resolve_left fun habsent => habsent.not_mem_ownNames hn
  · intro n
    rw [← hnumbers n]
    constructor
    · intro hn
      by_cases hmem : n ∈ ns
      · exact hmem
      · exact absurd hn (hhygienic.absent .manager n hmem).not_mem_ownNames
    · intro hn
      exact List.mem_filterMap.mpr ⟨_, hhygienic.manager n hn, rfl⟩
  · intro x hx
    exact Context.ne_temp_of_not_isReserved (hlowers.bound_not_reserved hx)

/-- Two resources in one statement, one of which is acquired by a function that holds a
third, and a fourth in the body. -/
def Program.sampleOfFour : Program :=
  let third : Stmt := .holding ⟨[.new (.ident "third")], [.ret none], false⟩
  let fourth : Stmt := .holding ⟨[.bind (.new (.ident "fourth")) (.name "z")], [], false⟩
  let second : Item := .new (.call (.ident "make") [.function (.anonymous ["w"] [third])])
  ⟨[.holding
    ⟨[.bind (.new (.ident "first")) (.ofNames ["x", "y"]), second],
      [fourth, .ret (some (.ident "x"))], false⟩]⟩

theorem Program.lower_hygienic_of_four :
    ∃ q, sampleOfFour.lowerWith {} .lua = .ok q ∧
      Token.introductions "__outcome2" q.tokens = [.declare "__outcome2"] ∧
      Token.InScope "__value3" q.tokens ∧
      ∀ n, (Settings.context {} .lua).temp .manager n ∈ Token.ownNames q.tokens ↔ n < 4 := by
  obtain ⟨q, hq⟩ : ∃ q, sampleOfFour.lowerWith {} .lua = .ok q := ⟨_, rfl⟩
  have hoccurs : "__outcome2" ∈ Token.ownNames q.tokens := by
    cases hq
    decide
  obtain ⟨-, honce, hmanagers, hscope, -⟩ :=
    lower_hygienic {} .lua sampleOfFour q (by decide +kernel) (by decide) (by decide) hq
  refine ⟨q, hq, ?_, hscope .value 3, hmanagers⟩
  refine (honce .outcome 2 hoccurs).resolve_right fun hcaught => ?_
  cases hq
  revert hcaught
  decide

end Bracket
