import Bracket.Proofs.Tree.Written
import Bracket.Tree.Decode

/-!
# Reading written trees back

Every written form of a tree decodes to the tree, whichever of its functions, resources and
scoped statements are arrays.  The encoding is one of the written forms, so decoding undoes
encoding.
-/

namespace Bracket

/-! ## Texts, counts and operators -/

theorem Json.toTexts?_ofTexts (texts : List String) :
    (Json.ofTexts texts).toTexts? = some texts := by
  simp only [Json.ofTexts, Json.toTexts?]
  induction texts with
  | nil => rfl
  | cons t texts ih => simp [List.mapM_cons, Json.toText?, ih]

theorem Json.toWord?_ofNat (n : UInt64) : (Json.ofNat n.toNat).toWord? = some n := by
  have hlt : n.toNat < Nat.pow 2 64 := n.toNat_lt
  simp only [Json.ofNat, Json.toWord?, Numeral.ofNat, Numeral.toNat?]
  simp [hlt]

theorem BinaryOp.decode_tag (op : BinaryOp) : BinaryOp.decode (.string op.tag) = some op := by
  cases op <;> rfl

theorem UnaryOp.decode_tag (op : UnaryOp) : UnaryOp.decode (.string op.tag) = some op := by
  cases op <;> rfl

/-! ## Patterns -/

mutual

theorem Pattern.decode_encode : (p : Pattern) → Pattern.decode p.encode = some p
  | .name n => by simp [Pattern.encode, Json.node, Pattern.decode]
  | .tuple slots => by
      simp [Pattern.encode, Json.node, Pattern.decode, Pattern.decodeList_encode slots]

theorem Pattern.decodeList_encode :
    (ps : List Pattern) → Pattern.decodeList (Pattern.encodeList ps) = some ps
  | [] => by simp [Pattern.encodeList, Pattern.decodeList]
  | p :: ps => by
      simp [Pattern.encodeList, Pattern.decodeList, p.decode_encode, Pattern.decodeList_encode ps]

end

theorem Pattern.isNull_encode (p : Pattern) : p.encode.isNull = false := by
  cases p <;> rfl

/-! ## Parts that may be absent -/

/-- An optional part reads back if its values do and none of them is written as `null`. -/
theorem Json.decode_ofOption {α : Type} (encode : α → Json) (decode : Json → Option α)
    (hnull : ∀ a, (encode a).isNull = false) (hdecode : ∀ a, decode (encode a) = some a)
    (o : Option α) :
    (if (Json.ofOption encode o).isNull then some none
      else (decode (Json.ofOption encode o)).map some) = some o := by
  cases o with
  | none => rfl
  | some a => simp [Json.ofOption, hnull, hdecode]

theorem Json.toText?_ofOption (o : Option String) :
    (if (Json.ofOption .string o).isNull then some none
      else (Json.ofOption .string o).toText?.map some) = some o :=
  Json.decode_ofOption Json.string Json.toText? (fun _ => rfl) (fun _ => rfl) o

theorem Pattern.decode_ofOption (o : Option Pattern) :
    (if (Json.ofOption Pattern.encode o).isNull then some none
      else (Pattern.decode (Json.ofOption Pattern.encode o)).map some) = some o :=
  Json.decode_ofOption _ _ Pattern.isNull_encode Pattern.decode_encode o

theorem Item.decodeArity_ofOption (o : Option UInt64) :
    Item.decodeArity (.ofOption (fun n => .ofNat n.toNat) o) = some o :=
  Json.decode_ofOption _ _ (fun _ => rfl) Json.toWord?_ofNat o

/-! ## Fields -/

section Fields

variable {key k : String} {v : Json} {fs : List (String × Json)}

theorem Expr.decodeListField_of_ne (h : k ≠ key) :
    Expr.decodeListField key ((k, v) :: fs) = Expr.decodeListField key fs := by
  cases v <;> simp [Expr.decodeListField, h]

theorem Stmt.decodeListField_of_ne (h : k ≠ key) :
    Stmt.decodeListField key ((k, v) :: fs) = Stmt.decodeListField key fs := by
  cases v <;> simp [Stmt.decodeListField, h]

end Fields

theorem Literal.decode_of_written {l : Literal} {v : Json} :
    l.Written v → Literal.decode v = some l
  | .null => rfl
  | .bool _ => rfl
  | .number h => by simp [Json.node, Literal.decode, h]
  | .string _ => rfl

variable {arrays : Bool}

/-- No expression is written as `null`, so an optional one is told from an absent one. -/
theorem Expr.Written.isNull_eq {e : Expr} {v : Json} (h : Expr.Written arrays e v) :
    v.isNull = false := by
  cases h <;> rfl

theorem Stmt.Written.isNull_eq {s : Stmt} {v : Json} (h : Stmt.Written arrays s v) :
    v.isNull = false := by
  cases h <;> rfl

mutual

/-- Every written form of an expression decodes to it. -/
theorem Expr.decode_of_written {e : Expr} {v : Json} :
    Expr.Written arrays e v → Expr.decode v = some e
  | .literal hl => by simp [Json.node, Expr.decode, Literal.decode_of_written hl]
  | .ident x => by simp [Json.node, Expr.decode]
  | .binary op hl hr => by
      simp [Json.node, Expr.decode, Expr.decodeField, Json.field, Json.find?, op.decode_tag,
        Expr.decode_of_written hl, Expr.decode_of_written hr]
  | .unary op he => by
      simp [Json.node, Expr.decode, Expr.decodeField, Json.field, Json.find?, op.decode_tag,
        Expr.decode_of_written he]
  | .call hf hargs => by
      simp [Json.node, Expr.decode, Expr.decodeField, Expr.decodeListField,
        Expr.decodeListField_of_ne, Expr.decode_of_written hf, Expr.decodeList_of_written hargs]
  | .methodCall m hr hargs => by
      simp [Json.node, Expr.decode, Expr.decodeField, Expr.decodeListField, Json.field,
        Json.find?, Json.toText?, Expr.decodeListField_of_ne, Expr.decode_of_written hr,
        Expr.decodeList_of_written hargs]
  | .member computed ho hp => by
      simp [Json.node, Expr.decode, Expr.decodeField, Json.field, Json.find?, Json.toBool?,
        Expr.decode_of_written ho, Expr.decode_of_written hp]
  | .array hes => by simp [Json.node, Expr.decode, Expr.decodeList_of_written hes]
  | .object hps => by simp [Json.node, Expr.decode, Expr.decodePairs_of_written hps]
  | .function hf => by simp [Json.node, Expr.decode, Func.decode_of_written hf]
  | .conditional ht ha hb => by
      simp [Json.node, Expr.decode, Expr.decodeField, Expr.decode_of_written ht,
        Expr.decode_of_written ha, Expr.decode_of_written hb]
  | .assign ht he => by
      simp [Json.node, Expr.decode, Expr.decodeField, Expr.decode_of_written ht,
        Expr.decode_of_written he]
  | .await he => by simp [Json.node, Expr.decode, Expr.decode_of_written he]

theorem Expr.decodeList_of_written {es : List Expr} {vs : List Json} :
    Expr.WrittenList arrays es vs → Expr.decodeList vs = some es
  | .nil => by simp [Expr.decodeList]
  | .cons he hes => by
      simp [Expr.decodeList, Expr.decode_of_written he, Expr.decodeList_of_written hes]

theorem Expr.decodeOption_of_written {e : Option Expr} {v : Json} :
    Expr.WrittenOption arrays e v →
      (if v.isNull then some none else (Expr.decode v).map some) = some e
  | .none => by simp [Json.isNull]
  | .some he => by simp [he.isNull_eq, Expr.decode_of_written he]

theorem Expr.decodePairs_of_written {ps : List (String × Expr)} {vs : List Json} :
    Expr.WrittenPairs arrays ps vs → Expr.decodePairs vs = some ps
  | .nil => by simp [Expr.decodePairs]
  | .cons key he hps => by
      simp [Expr.decodePairs, Expr.decode_of_written he, Expr.decodePairs_of_written hps]

/-- Every written form of a function decodes to it. -/
theorem Func.decode_of_written {f : Func} {v : Json} :
    Func.Written arrays f v → Func.decode v = some f
  | .object name params isAsync hbody => by
      simp [Func.decode, Json.field, Json.fieldWithDefault, Json.find?, Json.toText?,
        Json.toBool?, Json.toTexts?_ofTexts, Stmt.decodeListField_of_ne, Stmt.decodeListField,
        Stmt.decodeList_of_written hbody]
  | .array _ name params isAsync hbody => by
      simp [Func.decode, Json.toText?, Json.toBool?, Json.toTexts?_ofTexts,
        Stmt.decodeList_of_written hbody]
  | .shortArray _ name params hbody => by
      simp [Func.decode, Json.toText?, Json.toTexts?_ofTexts, Stmt.decodeList_of_written hbody]

/-- Every written form of a statement decodes to it. -/
theorem Stmt.decode_of_written {s : Stmt} {v : Json} :
    Stmt.Written arrays s v → Stmt.decode v = some s
  | .expr he => by simp [Json.node, Stmt.decode, Expr.decode_of_written he]
  | .declare x m hi => by
      simp [Json.node, Stmt.decode, Expr.decodeOptionField, Json.field, Json.find?,
        Json.toText?, Json.toBool?, Expr.decodeOption_of_written hi]
  | .destructure p hi => by
      simp [Json.node, Stmt.decode, Expr.decodeField, Json.field, Json.find?, p.decode_encode,
        Expr.decode_of_written hi]
  | .block hb => by simp [Json.node, Stmt.decode, Stmt.decodeList_of_written hb]
  | .ifElse ht ha hb => by
      simp [Json.node, Stmt.decode, Expr.decodeField, Stmt.decodeField, Stmt.decodeOptionField,
        Expr.decode_of_written ht, Stmt.decode_of_written ha, Stmt.decodeOption_of_written hb]
  | .whileLoop ht hb => by
      simp [Json.node, Stmt.decode, Expr.decodeField, Stmt.decodeField,
        Expr.decode_of_written ht, Stmt.decode_of_written hb]
  | .forLoop hi ht hu hb => by
      simp [Json.node, Stmt.decode, Stmt.decodeField, Stmt.decodeOptionField,
        Expr.decodeOptionField, Stmt.decodeOption_of_written hi,
        Expr.decodeOption_of_written ht, Expr.decodeOption_of_written hu,
        Stmt.decode_of_written hb]
  | .forEach x hi hb => by
      simp [Json.node, Stmt.decode, Expr.decodeField, Stmt.decodeField, Json.field, Json.find?,
        Json.toText?, Expr.decode_of_written hi, Stmt.decode_of_written hb]
  | .ret .none => by simp [Json.node, Stmt.decode, Json.isNull]
  | .ret (.some he) => by simp [Json.node, Stmt.decode, he.isNull_eq, Expr.decode_of_written he]
  | .breakLoop => by simp [Stmt.decode, Json.toTag?]
  | .continueLoop => by simp [Stmt.decode, Json.toTag?]
  | .throw he => by simp [Json.node, Stmt.decode, Expr.decode_of_written he]
  | .tryCatch p hb hh hf => by
      simp [Json.node, Stmt.decode, Stmt.decodeField, Stmt.decodeOptionField,
        Json.optionalField, Json.find?, Json.toText?_ofOption, Stmt.decode_of_written hb,
        Stmt.decodeOption_of_written hh, Stmt.decodeOption_of_written hf]
  | .function hf => by simp [Json.node, Stmt.decode, Func.decode_of_written hf]
  | .holding hs => by simp [Json.node, Stmt.decode, Scoped.decode_of_written hs]

theorem Stmt.decodeList_of_written {ss : List Stmt} {vs : List Json} :
    Stmt.WrittenList arrays ss vs → Stmt.decodeList vs = some ss
  | .nil => by simp [Stmt.decodeList]
  | .cons hs hss => by
      simp [Stmt.decodeList, Stmt.decode_of_written hs, Stmt.decodeList_of_written hss]

theorem Stmt.decodeOption_of_written {s : Option Stmt} {v : Json} :
    Stmt.WrittenOption arrays s v →
      (if v.isNull then some none else (Stmt.decode v).map some) = some s
  | .none => by simp [Json.isNull]
  | .some hs => by simp [hs.isNull_eq, Stmt.decode_of_written hs]

/-- Every written form of a resource decodes to it. -/
theorem Item.decode_of_written {i : Item} {v : Json} :
    Item.Written arrays i v → Item.decode v = some i
  | .object binding hacquire => by
      simp [Item.decode, Expr.decodeField, Json.optionalField, Json.find?,
        Pattern.decode_ofOption, Expr.decode_of_written hacquire]
  | .objectWithArity binding arity hacquire => by
      have harity : (Json.ofNat arity.toNat).isNull = false := rfl
      simp [Item.decode, Expr.decodeField, Json.optionalField, Json.find?,
        Pattern.decode_ofOption, harity, Json.toWord?_ofNat, Expr.decode_of_written hacquire]
  | .array _ binding arity hacquire => by
      simp [Item.decode, Pattern.decodeOption, Pattern.decode_ofOption,
        Item.decodeArity_ofOption, Expr.decode_of_written hacquire]
  | .shortArray _ binding hacquire => by
      simp [Item.decode, Pattern.decodeOption, Pattern.decode_ofOption,
        Expr.decode_of_written hacquire]

theorem Item.decodeList_of_written {is : List Item} {vs : List Json} :
    Item.WrittenList arrays is vs → Item.decodeList vs = some is
  | .nil => by simp [Item.decodeList]
  | .cons hi his => by
      simp [Item.decodeList, Item.decode_of_written hi, Item.decodeList_of_written his]

/-- Every written form of a scoped statement decodes to it. -/
theorem Scoped.decode_of_written {s : Scoped} {v : Json} :
    Scoped.Written arrays s v → Scoped.decode v = some s
  | .object isAsync hitems hbody => by
      simp [Scoped.decode, Json.fieldWithDefault, Json.find?, Json.toBool?,
        Item.decodeListField, Stmt.decodeListField, Item.decodeList_of_written hitems,
        Stmt.decodeList_of_written hbody]
  | .array _ isAsync hitems hbody => by
      simp [Scoped.decode, Json.toBool?, Item.decodeList_of_written hitems,
        Stmt.decodeList_of_written hbody]
  | .shortArray _ hitems hbody => by
      simp [Scoped.decode, Item.decodeList_of_written hitems, Stmt.decodeList_of_written hbody]

end

/-- Every written form of a program decodes to it. -/
theorem Program.decode_of_written {p : Program} {v : Json} :
    Program.Written arrays p v → Program.decode v = some p
  | .object hbody => by
      simp [Program.decode, Stmt.decodeListField, Stmt.decodeList_of_written hbody]
  | .array _ hbody => by simp [Program.decode, Stmt.decodeList_of_written hbody]

/-! ## Encodings -/

/-- The encoding is a written form without arrays as soon as the numbers read back, and every
written form, with or without arrays, decodes to what it stands for. -/
def Faithful {α : Type}
    (numbers : α → List Double) (encode : (Double → Json) → α → Json)
    (written : Bool → α → Json → Prop) (decode : Json → Option α) : Prop :=
  (∀ number a, ReadBack number (numbers a) →
    written false a (encode number a) ∧ decode (encode number a) = some a) ∧
  ∀ arrays a v, written arrays a v → decode v = some a

theorem Faithful.of_written {α : Type}
    {numbers : α → List Double} {encode : (Double → Json) → α → Json}
    {written : Bool → α → Json → Prop} {decode : Json → Option α}
    (hencode : ∀ number a, ReadBack number (numbers a) → written false a (encode number a))
    (hdecode : ∀ arrays a v, written arrays a v → decode v = some a) :
    Faithful numbers encode written decode := by
  refine ⟨?_, hdecode⟩
  intro number a h
  have hwritten := hencode number a h
  exact ⟨hwritten, hdecode false a _ hwritten⟩

/-- Decoding undoes encoding for every kind of tree, and functions, resources, scoped
statements and programs may be written as arrays wherever they stand. -/
theorem decode_undoes_encode :
    Faithful Program.numbers Program.encode Program.Written Program.decode ∧
    Faithful Stmt.numbers Stmt.encode Stmt.Written Stmt.decode ∧
    Faithful Expr.numbers Expr.encode Expr.Written Expr.decode ∧
    Faithful Func.numbers Func.encode Func.Written Func.decode ∧
    Faithful Item.numbers Item.encode Item.Written Item.decode ∧
    Faithful Scoped.numbers Scoped.encode Scoped.Written Scoped.decode ∧
    ∀ p : Pattern, Pattern.decode p.encode = some p := by
  refine ⟨?_, ?_, ?_, ?_, ?_, ?_, Pattern.decode_encode⟩
  · exact .of_written (fun _ => Program.written_encode) (fun _ _ _ => Program.decode_of_written)
  · exact .of_written (fun _ => Stmt.written_encode) (fun _ _ _ => Stmt.decode_of_written)
  · exact .of_written (fun _ => Expr.written_encode) (fun _ _ _ => Expr.decode_of_written)
  · exact .of_written (fun _ => Func.written_encode) (fun _ _ _ => Func.decode_of_written)
  · exact .of_written (fun _ => Item.written_encode) (fun _ _ _ => Item.decode_of_written)
  · exact .of_written (fun _ => Scoped.written_encode) (fun _ _ _ => Scoped.decode_of_written)

/-- A program that holds a resource while it defines a function that returns one half. -/
def Program.sampleOfHalf : Program :=
  ⟨[.holding
    ⟨[⟨.ident "lock", some (.name "x"), none⟩],
      [.function ⟨"f", ["y"], [.ret (some (.literal (.number ⟨0x3FE0000000000000⟩)))], false⟩],
      true⟩]⟩

/-- One half, written as `0.5`. -/
def Json.half : Json := .number ⟨false, 5, -1, false⟩

/-- All four plain objects are arrays; the resource leaves out its number of entry values and
the function its suspension mark. -/
theorem decode_undoes_encode_of_half :
    ReadBack (fun _ => .half) Program.sampleOfHalf.numbers ∧
    Program.decode (Program.sampleOfHalf.encode fun _ => .half) = some Program.sampleOfHalf ∧
    Program.decode
      (.array [.array [.node "With" (.array
        [.array [.array [.node "Ident" (.string "lock"), .node "Name" (.string "x")]],
          .array [.node "Function" (.array [.string "f", .ofTexts ["y"],
            .array [.node "Return" (.node "Literal" (.node "Number" .half))]])],
          .bool true])]]) = some Program.sampleOfHalf := by
  have hhalf : Json.half.toDouble? = some ⟨0x3FE0000000000000⟩ := by decide +kernel
  have hread : ReadBack (fun _ => .half) Program.sampleOfHalf.numbers := by
    intro d hd
    rw [hhalf, List.mem_singleton.mp hd]
  refine ⟨hread, (decode_undoes_encode.1.1 _ _ hread).2, ?_⟩
  refine decode_undoes_encode.1.2 true _ _ (.array rfl (.cons (.holding ?_) .nil))
  refine .array rfl true (.cons ?_ .nil) (.cons (.function ?_) .nil)
  · exact .shortArray rfl (some (.name "x")) (.ident "lock")
  · exact .shortArray rfl "f" ["y"] (.cons (.ret (.some (.literal (.number hhalf)))) .nil)

end Bracket
