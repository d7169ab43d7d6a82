import Bracket.Proofs.Refinement.Guarded
import Bracket.Proofs.Refinement.ProtectedCall

/-!
# Entry values that cannot be bound

A resource is held as soon as it is entered, before its entry value is taken
apart.  If that fails, the resource itself and all before it are released, in
either expansion, as if a body had thrown the error at this place.
-/

namespace Bracket

variable {W : Type}

namespace Trace

/-- The reference run over resources up to number `k` whose body throws, without
the body, is to hold the first `k` around the last one and its release. -/
theorem withoutBody_runScoped_throw
    (resources : List Resource) (r : Resource) (u : Fault) :
    (runScoped (resources ++ [r]) (.exception u)).withoutBody =
      nest 0 resources (nest resources.length [r] ⟨[], .exception u⟩) := by
  rw [runScoped_eq_nest, withoutBody_nest, nest_append, Nat.zero_add]
  rfl

theorem acquired_withoutBody_runScoped
    {resources : List Resource} (h : ∀ r ∈ resources, r.acquireFails = none) (b : Outcome) :
    (runScoped resources b).withoutBody.acquired = List.range resources.length := by
  rw [runScoped_eq_nest, withoutBody_nest, acquired_nest h, List.range_eq_range']
  exact List.append_nil _

theorem released_withoutBody_runScoped
    {resources : List Resource} (h : ∀ r ∈ resources, r.acquireFails = none) (b : Outcome) :
    (runScoped resources b).withoutBody.released = (List.range resources.length).reverse := by
  rw [runScoped_eq_nest, withoutBody_nest, released_nest h, List.range_eq_range']
  rfl

end Trace

namespace Runtime

variable {rt : Runtime W} {conv : Conventions} {env : Env} {s s' : State W}
  {inner : State W → Answer W Completion → Prop}

/-- An item whose entry value cannot be bound ends like a nested body that
throws. -/
theorem Holding.of_unpack_error
    {i : Nat} {item : Item} {items : List Item} {p : Pattern} {u : Fault}
    (results : List Value)
    (hacquire : rt.Evaluates env item.acquire s ⟨.ok (.manager i), s', []⟩)
    (hfails : (rt.resource i).acquireFails = none) (hbinding : item.binding = some p)
    (hunpack : rt.unpack conv s'.world p (rt.entryValue i).1 = .error (.fault u)) :
    rt.Holding conv env inner i (item :: items) s
      ((Trace.nest i [rt.resource i] ⟨[], .exception u⟩).outcome.ending results)
      (Trace.nest i [rt.resource i] ⟨[], .exception u⟩).events := by
  rw [Trace.nest_of_acquired _ _ hfails, Outcome.ending_afterRelease]
  exact .unbound hacquire hfails hbinding hunpack

end Runtime

theorem Runtime.take_resources
    {rt : Runtime W} {k : Nat} (hk : k < rt.resources.length) :
    rt.resources.take (k + 1) = rt.resources.take k ++ [rt.resource k] := by
  rw [List.take_add_one, Runtime.resource, List.getD_eq_getElem?_getD,
    List.getElem?_eq_getElem hk]
  rfl

theorem Runtime.acquireFails_of_mem_take
    {rt : Runtime W} {k : Nat} (h : ∀ i ≤ k, (rt.resource i).acquireFails = none) :
    ∀ r ∈ rt.resources.take (k + 1), r.acquireFails = none := by
  intro r hr
  obtain ⟨i, hi, hget⟩ := List.mem_take_iff_getElem.mp hr
  have hresource : rt.resource i = r := by
    rw [Runtime.resource, List.getD_eq_getElem?_getD, List.getElem?_eq_getElem (by omega), hget]
    rfl
  rw [← hresource]
  exact h i (by omega)

/-- Code around which nothing but holding is known runs as holding says, in either
expansion, if the body inside never runs. -/
theorem Context.execList_expandItems_of_unreached
    {rt : Runtime W} {c : Context} {env env' : Env} {s S : State W} {isAsync : Bool}
    {Private : String → Prop} {place : Placement} {m : Nat} {items : List Item}
    {body code : List Stmt}
    {r : Ending} {es : List Event} (hrt : rt.Follows c.conventions)
    (hprotects : c.conventions.expansion = .protectedCall → rt.Protects env)
    (hpcall : ¬Private "pcall") (htable : ¬Private "table")
    (hholding : rt.Holding c.conventions env (fun _ _ => False) 0 items s r es)
    (hcode : c.expandItems isAsync 0 items body = .ok code)
    (hapart : c.Apart Private m items) (hm : items.length ≤ m)
    (hmirrors : Mirrors Private place env s env' S) :
    RunsAmong rt Private place s env' S code r es := by
  have hinner : RunsInside rt Private env body fun _ _ => False :=
    fun _ _ _ _ _ _ _ h => h.elim
  by_cases hprotected : c.conventions.expansion = .protectedCall
  · exact execList_expandItems_protected hprotected hrt (hprotects hprotected) hpcall htable
      hinner (fun _ _ h => h.elim) hholding hcode hapart (by omega) hmirrors
  · exact execList_expandItems_guarded isAsync hprotected hrt hinner hholding hcode hapart
      (by omega) hmirrors

/-- A scoped statement whose item number `k` is entered but cannot be bound behaves
as the reference run over the first `k + 1` resources does whose body throws the
error, without the body: resources `k` to `0` are released, resource `k` is shown
the error, later resources are never acquired, and the body never runs. -/
theorem Scoped.failed_binding_releases
    (rt : Runtime W) (c : Context) (s : Scoped) (inAsync : Bool) (u : Fault)
    {front rest : List Item} {item : Item} {p : Pattern} {body code : List Stmt}
    {env : Env} {st st₁ st₂ : State W}
    (hstyle : c.conventions.expansion ≠ .native) (hrt : rt.Follows c.conventions)
    (hprotects : c.conventions.expansion = .protectedCall → rt.Protects env)
    (hlength : rt.resources.length = s.items.length)
    (hnames : ∀ item ∈ s.items, ∀ x ∈ item.acquire.names,
      ¬c.isReserved x ∧ x ∉ s.boundNames)
    (hcalls : "pcall" ∉ s.boundNames ∧ "table" ∉ s.boundNames)
    (hcode : s.lowerAlone c inAsync = .ok code)
    (hparts : s.LowersInto c (s.isAsync || inAsync) (front ++ item :: rest) body)
    (hstate : st.Closed (s.Declares c))
    (hacquired : ∀ i ≤ front.length, (rt.resource i).acquireFails = none)
    (hfront : rt.Acquires c.conventions env 0 front st st₁)
    (hitem : rt.Evaluates env item.acquire st₁ ⟨.ok (.manager front.length), st₂, []⟩)
    (hbinding : item.binding = some p)
    (hunpack : rt.unpack c.conventions st₂.world p (rt.entryValue front.length).1 =
      .error (.fault u)) :
    let t := (runScoped (rt.resources.take (front.length + 1)) (.exception u)).withoutBody
    (∃ st₃, ∀ a, rt.Executes env code st a ↔ a = ⟨t.outcome.ending [], st₃, t.events⟩) ∧
      t.acquired = List.range (front.length + 1) ∧
      t.released = (List.range (front.length + 1)).reverse ∧
      .release front.length (some u) ∈ t.events ∧ .body ∉ t.events := by
  intro t
  obtain ⟨hitems, hapart⟩ := hparts.apart hstyle (fun _ => hcalls) hnames
  have hk : front.length < rt.resources.length := by
    rw [hlength, ← hitems, List.length_append, List.length_cons]
    omega
  have ht : t = Trace.nest 0 (rt.resources.take front.length)
      (Trace.nest front.length [rt.resource front.length] ⟨[], .exception u⟩) := by
    have htrace := Trace.withoutBody_runScoped_throw (rt.resources.take front.length)
      (rt.resource front.length) u
    rwa [← Runtime.take_resources hk, List.length_take_of_le (Nat.le_of_lt hk)] at htrace
  have hall := Runtime.acquireFails_of_mem_take hacquired
  have hcount : (rt.resources.take (front.length + 1)).length = front.length + 1 :=
    List.length_take_of_le hk
  have hacquires := Trace.acquired_withoutBody_runScoped hall (.exception u)
  have hreleases := Trace.released_withoutBody_runScoped hall (.exception u)
  rw [hcount] at hacquires hreleases
  refine ⟨?_, hacquires, hreleases, ?_, Trace.body_not_mem_withoutBody _⟩
  · have hexpand := expandScoped_of_lowerAlone hcode hparts
    rw [Context.expandScoped, if_neg hstyle] at hexpand
    have hlast : rt.Holding c.conventions env (fun _ _ => False) front.length (item :: rest) st₁
        _ _ :=
      .of_unpack_error [] hitem (hacquired _ (Nat.le_refl _)) hbinding hunpack
    have hholding := hfront.holding (by omega) (by rwa [Nat.zero_add])
    rw [List.drop_zero, ← ht] at hholding
    obtain ⟨n, place, st₃, hrun, -⟩ := Context.execList_expandItems_of_unreached hrt hprotects
      (s.not_declares_call hcalls (.inl rfl)) (s.not_declares_call hcalls (.inr rfl)) hholding
      hexpand hapart (Nat.le_of_eq hitems) (s.mirrors_self env hstate)
    rw [Outcome.move_ending, List.map_nil] at hrun
    exact ⟨st₃, Runtime.Executes.iff_eq ⟨n, hrun⟩⟩
  · rw [ht]
    apply Trace.mem_events_nest fun r hr =>
      hall r (List.take_subset_take_left _ (Nat.le_succ _) hr)
    rw [Trace.nest_of_acquired _ _ (hacquired _ (Nat.le_refl _))]
    exact List.mem_append_right _ (List.mem_singleton.mpr rfl)

/-- A statement that binds the parts of the second of three resources.  A function
makes the first. -/
def Scoped.sampleOfThree : Scoped :=
  ⟨[.new (.call (.ident "helper") []), .bind (.new (.ident "second")) (.ofNames ["x", "y"]),
    .new (.ident "third")], [], false⟩

/-- A second resource that yields null where two values are wanted, between one
that handles errors and one that is never reached, in both expansions.  The function
that makes the first resource has captured a variable `x` and has a variable `y` of
its own, while the statement would bind `x` and `y`. -/
theorem Scoped.failed_binding_releases_of_null :
    (∃ code st, Scoped.sampleOfThree.lowerAlone ⟨.typescript, "__"⟩ false = .ok code ∧
      ∀ a, (Runtime.sample .typescript [.releasing .handled, .ok, .ok] .null rfl).Executes
          .helper code (.withHelper (.manager 0)) a ↔
        a = ⟨.ok .normal, st, [.acquire 0, .acquire 1, .release 1 (some ⟨"TypeError"⟩),
          .release 0 (some ⟨"TypeError"⟩)]⟩) ∧
    ∃ code st, Scoped.sampleOfThree.lowerAlone ⟨.lua, "__"⟩ false = .ok code ∧
      ∀ a, (Runtime.sample .lua [.releasing .handled, .ok, .ok] .null rfl).Executes
          .helper code (.withHelper (.manager 0)) a ↔
        a = ⟨.ok .normal, st, [.acquire 0, .acquire 1, .release 1 (some ⟨"TypeError"⟩),
          .release 0 (some ⟨"TypeError"⟩)]⟩ := by
  have hfails {conv : Conventions} : ∀ i ≤ 1,
      ((Runtime.sample conv [.releasing .handled, .ok, .ok] .null rfl).resource i).acquireFails =
        none := by
    intro i hi
    match i, hi with
    | 0, _ => rfl
    | 1, _ => rfl
  let st₁ := (State.withHelper (.manager 0)).declare false "y" (.manager 0)
  have hsecond {conv : Conventions} :
      (Runtime.sample conv [.releasing .handled, .ok, .ok] .null rfl).Evaluates
        .helper (.ident "second") st₁ ⟨.ok (.manager 1), st₁, []⟩ :=
    Runtime.evaluates_of_ask rfl (by decide) (by decide) rfl
  constructor
  · have hparts : Scoped.sampleOfThree.LowersInto ⟨.typescript, "__"⟩ false
        ([.new (.call (.ident "helper") [])] ++
          .bind (.new (.ident "second")) (.ofNames ["x", "y"]) :: [.new (.ident "third")]) [] :=
      ⟨_, _, rfl, rfl⟩
    obtain ⟨⟨st, hrun⟩, -⟩ := Scoped.failed_binding_releases
      (Runtime.sample .typescript [.releasing .handled, .ok, .ok] .null rfl)
      ⟨.typescript, "__"⟩ Scoped.sampleOfThree false ⟨"TypeError"⟩ (by decide)
      ⟨rfl, rfl, by decide⟩ (fun h => nomatch h) rfl (by decide) (by decide) rfl hparts
      (State.withHelper_closed rfl _) hfails
      (.cons ⟨1, rfl⟩ (fun p hp => nomatch hp) .nil) hsecond rfl rfl
    exact ⟨_, st, rfl, hrun⟩
  · have hparts : Scoped.sampleOfThree.LowersInto ⟨.lua, "__"⟩ false
        ([.new (.call (.ident "helper") [])] ++
          .bind (.new (.ident "second")) (.ofNames ["x", "y"]) :: [.new (.ident "third")]) [] :=
      ⟨_, _, rfl, rfl⟩
    obtain ⟨⟨st, hrun⟩, -⟩ := Scoped.failed_binding_releases
      (Runtime.sample .lua [.releasing .handled, .ok, .ok] .null rfl)
      ⟨.lua, "__"⟩ Scoped.sampleOfThree false ⟨"TypeError"⟩ (by decide)
      ⟨rfl, rfl, by decide⟩ (fun _ => ⟨rfl, rfl, rfl⟩) rfl (by decide) (by decide) rfl hparts
      (State.withHelper_closed rfl _) hfails
      (.cons ⟨1, rfl⟩ (fun p hp => nomatch hp) .nil) hsecond rfl rfl
    exact ⟨_, st, rfl, hrun⟩

end Bracket
