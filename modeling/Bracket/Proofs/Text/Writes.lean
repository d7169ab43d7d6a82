import Bracket.Text.Buffer
import Bracket.Text.Layout

/-!
# What writers write

A writer is described by the text that it puts behind what is written already.  The text
may depend on the width of indentation and on the number of local variables made up so
far, so it is a computation on that number for each width.  The rules follow the steps of
writers; the ones that take text back say what is left of the text before.

The text of a document is that of its lines.  A document that begins every line of its
own is closed by a line feed.
-/

namespace Bracket

namespace Text

/-! ## The text of documents -/

theorem toList_renderLines_cons
    (width : Nat) (line : Line) (lines : List Line) :
    (renderLines width (line :: lines)).toList =
      List.replicate (line.depth * width) ' ' ++ line.text.toList ++ '\n' ::
        (renderLines width lines).toList := by
  simp [renderLines, Line.render, String.join_cons]

theorem toList_renderLines_append
    (width : Nat) (a b : List Line) :
    (renderLines width (a ++ b)).toList =
      (renderLines width a).toList ++ (renderLines width b).toList := by
  simp [renderLines, String.toList_join]

namespace Doc

/-- The characters of a document that continues a line. -/
def render (width : Nat) : Doc → List Char
  | [] => []
  | .text s :: rest => s.toList ++ render width rest
  | .lineBreak depth :: rest =>
      '\n' :: (List.replicate (depth * width) ' ' ++ render width rest)

/-- The characters of the lines of a document. -/
def close (width : Nat) (doc : Doc) : List Char := (renderLines width doc.lines).toList

/-- The document begins every line that it fills. -/
def OpensLines (doc : Doc) : Prop := doc = [] ∨ ∃ depth rest, doc = .lineBreak depth :: rest

@[simp] theorem render_nil (width : Nat) : render width [] = [] := rfl

@[simp] theorem render_text
    (width : Nat) (s : String) (rest : Doc) :
    render width (.text s :: rest) = s.toList ++ render width rest := rfl

@[simp] theorem render_lineBreak
    (width depth : Nat) (rest : Doc) :
    render width (.lineBreak depth :: rest) =
      '\n' :: (List.replicate (depth * width) ' ' ++ render width rest) := rfl

@[simp] theorem render_append
    (width : Nat) (a b : Doc) : render width (a ++ b) = render width a ++ render width b := by
  induction a with
  | nil => rfl
  | cons piece a ih =>
      cases piece with
      | text s => simp [ih]
      | lineBreak depth => simp [ih]

theorem toList_renderLines_linesFrom
    (width : Nat) (doc : Doc) (line : Line) :
    (renderLines width (linesFrom line doc)).toList =
      List.replicate (line.depth * width) ' ' ++ line.text.toList ++ render width doc
        ++ ['\n'] := by
  induction doc generalizing line with
  | nil => rw [linesFrom, toList_renderLines_cons, render_nil, List.append_nil]; rfl
  | cons piece doc ih =>
      cases piece with
      | text s => simp [linesFrom, ih]
      | lineBreak depth => simp [linesFrom, toList_renderLines_cons, ih]

@[simp] theorem close_nil (width : Nat) : close width [] = [] := by
  simp [close, lines, linesFrom, renderLines]

@[simp] theorem close_lineBreak
    (width depth : Nat) (rest : Doc) :
    close width (.lineBreak depth :: rest) =
      List.replicate (depth * width) ' ' ++ render width rest ++ ['\n'] := by
  simp [close, lines, linesFrom, toList_renderLines_linesFrom]

theorem OpensLines.nil : OpensLines [] := .inl rfl

theorem OpensLines.cons (depth : Nat) (rest : Doc) : OpensLines (.lineBreak depth :: rest) :=
  .inr ⟨depth, rest, rfl⟩

theorem OpensLines.append
    {a b : Doc} (ha : OpensLines a) (hb : OpensLines b) : OpensLines (a ++ b) := by
  rcases ha with rfl | ⟨depth, rest, rfl⟩
  · exact hb
  · exact .cons depth (rest ++ b)

/-- The line feed before the first line is as good as one behind the last. -/
theorem OpensLines.render_newline
    {doc : Doc} (h : OpensLines doc) (width : Nat) (rest : List Char) :
    render width doc ++ '\n' :: rest = '\n' :: (close width doc ++ rest) := by
  rcases h with rfl | ⟨depth, tail, rfl⟩
  · simp
  · simp

theorem OpensLines.close_append
    {a b : Doc} (ha : OpensLines a) (hb : OpensLines b) (width : Nat) :
    close width (a ++ b) = close width a ++ close width b := by
  rcases ha with rfl | ⟨depth, rest, rfl⟩
  · simp
  · have hclose := hb.render_newline width []
    simp only [List.append_nil] at hclose
    simp [hclose]

end Doc

/-! ## Writers -/

/-- The buffer with a text behind and a new number of local variables. -/
def Buffer.extend (b : Buffer) (r : List Char × Nat) : Buffer :=
  { b with written := r.1.reverse ++ b.written, locals := r.2 }

namespace Writing

/-- At level `d` the writer puts the given text behind what is written. -/
def Writes (d : Nat) (text : Nat → StateM Nat (List Char)) (m : Writing Unit) : Prop :=
  ∀ b : Buffer, b.depth = d → m.run b = ((), b.extend ((text b.width).run b.locals))

namespace Writes

variable {d : Nat} {S T : Nat → StateM Nat (List Char)} {m k : Writing Unit}

theorem congr (h : Writes d S m) (heq : ∀ w, S w = T w) : Writes d T m := by
  intro b hb
  rw [h b hb, heq]

theorem pure : Writes d (fun _ => Pure.pure []) (Pure.pure ()) :=
  fun _ _ => rfl

theorem bind
    (hm : Writes d S m) (hk : Writes d T k) :
    Writes d (fun w => do
      let x ← S w
      let y ← T w
      Pure.pure (x ++ y)) (m >>= fun _ => k) := by
  intro b hb
  have hrest := hk (b.extend ((S b.width).run b.locals)) hb
  have htext (x y : List Char) : y.reverse ++ (x.reverse ++ b.written) =
      (x ++ y).reverse ++ b.written := by
    rw [List.reverse_append, List.append_assoc]
  rw [StateT.run_bind, hm b hb]
  refine hrest.trans ?_
  simp only [Buffer.extend, htext]
  rfl

theorem push (text : String) : Writes d (fun _ => Pure.pure text.toList) (push text) :=
  fun _ _ => rfl

theorem writeIndent :
    Writes d (fun w => Pure.pure (List.replicate (d * w) ' ')) writeIndent := by
  rintro b rfl
  have hreverse : List.replicate b.indentation ' ' =
      (List.replicate (b.depth * b.width) ' ').reverse := by
    rw [List.reverse_replicate, Buffer.indentation]
  have hrun : Writing.writeIndent.run b =
      ((), { b with written := List.replicate b.indentation ' ' ++ b.written }) := rfl
  rw [hrun, hreverse]
  rfl

theorem newline :
    Writes d (fun w => Pure.pure ('\n' :: List.replicate (d * w) ' ')) newline :=
  ((push "\n").bind writeIndent).congr fun w => by simp

theorem writeLine
    (h : Writes d T m) :
    Writes d (fun w => do
      let x ← T w
      Pure.pure (List.replicate (d * w) ' ' ++ x ++ ['\n'])) (writeLine m) :=
  (writeIndent.bind (h.bind (push "\n"))).congr fun w => by simp

/-- One level deeper, the text is that of the deeper level. -/
theorem deeper (h : Writes (d + 1) T m) : Writes d T (deeper m) := by
  intro b hb
  have hinner := h { b with depth := b.depth + 1 } (congrArg (· + 1) hb)
  have hrun : (Writing.deeper m).run b =
      ((), { (m.run { b with depth := b.depth + 1 }).2 with
        depth := (m.run { b with depth := b.depth + 1 }).2.depth - 1 }) := rfl
  rw [hrun, hinner]
  rfl

theorem atMargin (h : Writes 0 T m) : Writes d T (atMargin m) := by
  intro b _
  have hinner := h { b with depth := 0 } rfl
  have hrun : (Writing.atMargin m).run b =
      ((), { (m.run { b with depth := 0 }).2 with depth := b.depth }) := rfl
  rw [hrun, hinner]
  rfl

/-- An indentation that is taken back leaves nothing. -/
theorem dropIndent (h : Writes d T m) :
    Writes d T (Writing.writeIndent >>= fun _ => Writing.dropIndent >>= fun _ => m) := by
  intro b hb
  have hdrop :
      { b with written := (List.replicate b.indentation ' ' ++ b.written).drop b.indentation } =
        b := by
    rw [List.drop_left' List.length_replicate]
  have hrun : (Writing.writeIndent >>= fun _ => Writing.dropIndent >>= fun _ => m).run b =
      m.run { b with
        written := (List.replicate b.indentation ' ' ++ b.written).drop b.indentation } := rfl
  rw [hrun, hdrop]
  exact h b hb

/-- The line feed that ends a text is taken back. -/
theorem trimmed
    (h : Writes d (fun w => do
      let x ← T w
      Pure.pure (x ++ ['\n'])) m) :
    Writes d T (trimmed m) := by
  intro b hb
  have hrun : (Writing.trimmed m).run b = Writing.trimNewline.run (m.run b).2 := rfl
  have hreverse (x : List Char) :
      (x ++ ['\n']).reverse ++ b.written = '\n' :: (x.reverse ++ b.written) := by
    rw [List.reverse_append]
    rfl
  rw [hrun, h b hb]
  simp only [Buffer.extend, StateT.run_bind, StateT.run_pure]
  exact congrArg (fun written => Writing.trimNewline.run
    { b with written := written, locals := ((T b.width).run b.locals).2 }) (hreverse _)

end Writes

/-- At level `d` the writer puts a text behind that depends on the width only. -/
def Puts (d : Nat) (text : Nat → List Char) (m : Writing Unit) : Prop :=
  Writes d (fun w => pure (text w)) m

namespace Puts

variable {d : Nat} {x y : Nat → List Char} {m k : Writing Unit}

theorem congr (h : Puts d x m) (heq : ∀ w, x w = y w) : Puts d y m :=
  Writes.congr h fun w => congrArg pure (heq w)

theorem pure : Puts d (fun _ => []) (Pure.pure ()) := Writes.pure

theorem bind
    (hm : Puts d x m) (hk : Puts d y k) : Puts d (fun w => x w ++ y w) (m >>= fun _ => k) :=
  (Writes.bind hm hk).congr fun w => by simp

theorem push (text : String) : Puts d (fun _ => text.toList) (push text) := Writes.push text

theorem writeIndent : Puts d (fun w => List.replicate (d * w) ' ') writeIndent :=
  Writes.writeIndent

theorem writeLine
    (h : Puts d x m) :
    Puts d (fun w => List.replicate (d * w) ' ' ++ x w ++ ['\n']) (writeLine m) :=
  (Writes.writeLine h).congr fun w => by simp

theorem deeper (h : Puts (d + 1) x m) : Puts d x (deeper m) := Writes.deeper h

theorem atMargin (h : Puts 0 x m) : Puts d x (atMargin m) := Writes.atMargin h

theorem dropIndent
    (h : Puts d x m) :
    Puts d x (Writing.writeIndent >>= fun _ => Writing.dropIndent >>= fun _ => m) :=
  Writes.dropIndent h

theorem trimmed (h : Puts d (fun w => x w ++ ['\n']) m) : Puts d x (trimmed m) :=
  Writes.trimmed (h.congr fun w => by simp)

end Puts

/-- The text of a writer that starts with nothing. -/
theorem Writes.textOf_eq
    {T : Nat → StateM Nat (List Char)} {m : Writing Unit} (h : Writes 0 T m) (w : Nat) :
    textOf w m = String.ofList ((T w).run 0).1 := by
  have hrun : m.run (.empty w) = ((), (Buffer.empty w).extend ((T w).run 0)) := h (.empty w) rfl
  rw [textOf, hrun, Buffer.text, Buffer.extend, Buffer.empty, List.append_nil,
    List.reverse_reverse]

theorem Puts.textOf_eq
    {x : Nat → List Char} {m : Writing Unit} (h : Puts 0 x m) (w : Nat) :
    textOf w m = String.ofList (x w) := Writes.textOf_eq h w

end Writing

end Text

end Bracket
