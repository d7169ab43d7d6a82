import Bracket.Proofs.Text.Quoting
import Bracket.Proofs.Text.Writes

/-!
# The outline of code

A reader goes through code from left to right.  It knows how many brackets are open and whether
it is inside of a string literal.  What it sees at the outermost level is the outline of the
code: the brackets and quotes stay, and what is between them is left out.

Code is closed if the reader comes to its end at the level where it began, outside of string
literals, and never closes a bracket that the code has not opened.  Between brackets closed code
leaves nothing in the outline, and side by side closed codes have the outlines side by side.
-/

namespace Bracket

namespace Text

/-! ## The reader -/

/-- Where a reader is. -/
inductive Place where
  | code
  | quoted
  /-- Behind a backslash in a string literal. -/
  | escaped
  deriving DecidableEq, Repr

/-- A reader and the number of brackets that are open. -/
structure Reader where
  place : Place
  level : Nat
  deriving DecidableEq, Repr

def isOpening (c : Char) : Bool := c == '(' || c == '[' || c == '\x7b'

def isClosing (c : Char) : Bool := c == ')' || c == ']' || c == '\x7d'

theorem not_isClosing_of_isOpening
    {c : Char} (h : isOpening c = true) : isClosing c = false := by
  simp only [isOpening, Bool.or_eq_true, beq_iff_eq] at h
  rcases h with (rfl | rfl) | rfl <;> decide

namespace Reader

/-- The reader reads a character, unless it closes a bracket that is not open. -/
def next : Reader → Char → Option Reader
  | ⟨.code, level⟩, c =>
      if isOpening c then some ⟨.code, level + 1⟩
      else if isClosing c then
        match level with
        | 0 => none
        | level + 1 => some ⟨.code, level⟩
      else some ⟨if c = '"' then .quoted else .code, level⟩
  | ⟨.quoted, level⟩, c =>
      some ⟨if c = '\\' then .escaped else if c = '"' then .code else .quoted, level⟩
  | ⟨.escaped, level⟩, _ => some ⟨.quoted, level⟩

/-- The reader sees the character at the outermost level. -/
def sees : Reader → Char → Bool
  | ⟨.code, level⟩, c => level == 0 || (level == 1 && isClosing c)
  | ⟨.quoted, level⟩, c => level == 0 && c == '"'
  | ⟨.escaped, _⟩, _ => false

/-- What the reader sees in a text, and where it is behind the text. -/
def read (r : Reader) : List Char → Option (List Char × Reader)
  | [] => some ([], r)
  | c :: t => do
      let next ← r.next c
      let (seen, last) ← next.read t
      some (if r.sees c then c :: seen else seen, last)

theorem read_append
    {r middle last : Reader} {t u seen rest : List Char} (ht : r.read t = some (seen, middle))
    (hu : middle.read u = some (rest, last)) : r.read (t ++ u) = some (seen ++ rest, last) := by
  induction t generalizing r seen with
  | nil =>
      cases ht
      exact hu
  | cons c t ih =>
      obtain ⟨next, hnext, htail⟩ := Option.bind_eq_some_iff.mp ht
      obtain ⟨⟨seen', middle'⟩, hread, hseen⟩ := Option.bind_eq_some_iff.mp htail
      cases hseen
      rw [List.cons_append, read, hnext, Option.bind_eq_bind, Option.bind_some, ih hread]
      by_cases hc : r.sees c = true
      · simp [hc]
      · simp [hc]

/-- The reader with one more open bracket around it. -/
def deeper (r : Reader) : Reader := ⟨r.place, r.level + 1⟩

theorem next_deeper
    {r r' : Reader} {c : Char} (h : r.next c = some r') :
    r.deeper.next c = some r'.deeper ∧ r.deeper.sees c = false := by
  obtain ⟨place, level⟩ := r
  cases place with
  | code =>
      by_cases hopening : isOpening c = true
      · have hclosing : isClosing c = false := not_isClosing_of_isOpening hopening
        simp only [next, hopening, if_true, Option.some.injEq] at h
        simp [next, deeper, sees, hopening, hclosing, ← h]
      · by_cases hclosing : isClosing c = true
        · -- A bracket that is closed was open before, so it is not the outermost one now.
          cases level with
          | zero => simp [next, hopening, hclosing] at h
          | succ level =>
              simp only [next, hopening, hclosing, if_true, Bool.false_eq_true, if_false,
                Option.some.injEq] at h
              simp [next, deeper, sees, hopening, hclosing, ← h]
        · simp only [next, hopening, hclosing, Bool.false_eq_true, if_false,
            Option.some.injEq] at h
          simp [next, deeper, sees, hopening, hclosing, ← h]
  | quoted =>
      cases h
      exact ⟨rfl, rfl⟩
  | escaped =>
      cases h
      exact ⟨rfl, rfl⟩

/-- Between brackets a reader does the same, and sees nothing. -/
theorem read_deeper
    {r last : Reader} {t seen : List Char} (h : r.read t = some (seen, last)) :
    r.deeper.read t = some ([], last.deeper) := by
  induction t generalizing r seen with
  | nil =>
      cases h
      rfl
  | cons c t ih =>
      obtain ⟨next, hnext, htail⟩ := Option.bind_eq_some_iff.mp h
      obtain ⟨⟨seen', last'⟩, hread, hseen⟩ := Option.bind_eq_some_iff.mp htail
      cases hseen
      obtain ⟨hdeeper, hsees⟩ := next_deeper hnext
      rw [read, hdeeper, Option.bind_eq_bind, Option.bind_some, ih hread, hsees]
      rfl

end Reader

/-! ## Closed code -/

/-- With `i` brackets open before it, the code leaves `j` brackets open. -/
def Nest (i j : Nat) (t : List Char) : Prop :=
  (Reader.read ⟨.code, i⟩ t).map Prod.snd = some ⟨.code, j⟩

instance (i j : Nat) (t : List Char) : Decidable (Nest i j t) := inferInstanceAs (Decidable (_ = _))

/-- The code is closed and has the given outline. -/
def Shows (t outline : List Char) : Prop :=
  Reader.read ⟨.code, 0⟩ t = some (outline, ⟨.code, 0⟩)

instance (t outline : List Char) : Decidable (Shows t outline) :=
  inferInstanceAs (Decidable (_ = _))

section Closed

variable {i j k : Nat} {t u o o' : List Char}

theorem nest_iff : Nest i j t ↔ ∃ seen, Reader.read ⟨.code, i⟩ t = some (seen, ⟨.code, j⟩) := by
  rw [Nest, Option.map_eq_some_iff]
  constructor
  · rintro ⟨⟨seen, last⟩, hread, rfl⟩
    exact ⟨seen, hread⟩
  · rintro ⟨seen, hread⟩
    exact ⟨_, hread, rfl⟩

theorem Nest.nil : Nest i i [] := rfl

theorem Nest.append (h : Nest i j t) (h' : Nest j k u) : Nest i k (t ++ u) := by
  obtain ⟨seen, hread⟩ := nest_iff.mp h
  obtain ⟨rest, hrest⟩ := nest_iff.mp h'
  exact nest_iff.mpr ⟨_, Reader.read_append hread hrest⟩

/-- There may be more open brackets around. -/
theorem Nest.deeper (h : Nest i j t) : Nest (i + 1) (j + 1) t := by
  obtain ⟨seen, hread⟩ := nest_iff.mp h
  exact nest_iff.mpr ⟨[], Reader.read_deeper hread⟩

theorem Nest.exists_shows (h : Nest 0 0 t) : ∃ o, Shows t o := nest_iff.mp h

theorem Shows.nest (h : Shows t o) : Nest 0 0 t := nest_iff.mpr ⟨o, h⟩

theorem Shows.unique (h : Shows t o) (h' : Shows t o') : o = o' := by
  cases h.symm.trans h'
  rfl

theorem Shows.append (h : Shows t o) (h' : Shows u o') : Shows (t ++ u) (o ++ o') :=
  Reader.read_append h h'

/-- Nothing shows between brackets. -/
theorem Nest.enclosed
    {opening closing : Char} (h : Nest 0 0 t) (ho : isOpening opening = true)
    (hc : isClosing closing = true) :
    Shows (opening :: (t ++ [closing])) [opening, closing] := by
  have hopening : Reader.read ⟨.code, 0⟩ [opening] = some ([opening], ⟨.code, 1⟩) := by
    simp [Reader.read, Reader.next, Reader.sees, ho]
  have hclosing : Reader.read ⟨.code, 1⟩ [closing] = some ([closing], ⟨.code, 0⟩) := by
    have hnot : isOpening closing = false := by
      rw [← Bool.not_eq_true]
      exact fun h' => absurd hc (by simp [not_isClosing_of_isOpening h'])
    simp [Reader.read, Reader.next, Reader.sees, hc, hnot]
  obtain ⟨o, hshows⟩ := h.exists_shows
  exact Reader.read_append hopening
    (Reader.read_append (Reader.read_deeper hshows) hclosing)

/-- The character is neither a bracket nor a quote. -/
def isFlat (c : Char) : Bool := !isOpening c && !isClosing c && c != '"'

/-- A class of characters without brackets and quotes. -/
theorem isFlat_of
    {p : Char → Bool} {c : Char} (h : p c = true)
    (hnone : ['(', '[', '\x7b', ')', ']', '\x7d', '"'].any p = false) : isFlat c = true := by
  have hne : ∀ c' ∈ ['(', '[', '\x7b', ')', ']', '\x7d', '"'], c ≠ c' := by
    rintro c' hc' rfl
    exact List.any_eq_false.mp hnone c hc' h
  simp only [List.forall_mem_cons] at hne
  simp [isFlat, isOpening, isClosing, hne]

/-- A class of characters without digits. -/
theorem not_isDigit_of
    {p : Char → Bool} {c : Char} (h : p c = true)
    (hnone : (List.range' 48 10).any (fun n => p (Char.ofNat n)) = false) : c.isDigit = false := by
  rw [← Bool.not_eq_true]
  intro hdigit
  have hrange : 48 ≤ c.toNat ∧ c.toNat ≤ 57 := by
    have hbounds : (decide (48 ≤ c.val) && decide (c.val ≤ 57)) = true := hdigit
    simpa [UInt32.le_iff_toNat_le] using hbounds
  have hc := List.any_eq_false.mp hnone c.toNat (List.mem_range'_1.mpr ⟨hrange.1, by omega⟩)
  rw [Char.ofNat_toNat] at hc
  exact hc h

theorem shows_of_isFlat (h : ∀ c ∈ t, isFlat c = true) : Shows t t := by
  induction t with
  | nil => rfl
  | cons c t ih =>
      obtain ⟨hc, ht⟩ := List.forall_mem_cons.mp h
      have hread : Reader.read ⟨.code, 0⟩ t = some (t, ⟨.code, 0⟩) := ih ht
      simp only [isFlat, Bool.and_eq_true, Bool.not_eq_true', bne_iff_ne] at hc
      obtain ⟨⟨hopening, hclosing⟩, hquote⟩ := hc
      simp [Shows, Reader.read, Reader.next, Reader.sees, hopening, hclosing, hquote, hread]

theorem Nest.inside (h : Nest 0 0 t) : Nest i i t := by
  induction i with
  | zero => exact h
  | succ i ih => exact ih.deeper

end Closed

/-! ## Quoted text -/

theorem read_escape
    (s : List Char) : Reader.read ⟨.quoted, 0⟩ (escape s) = some ([], ⟨.quoted, 0⟩) := by
  induction s with
  | nil => rfl
  | cons c s ih =>
      have hchar : Reader.read ⟨.quoted, 0⟩ (escapeChar c) = some ([], ⟨.quoted, 0⟩) := by
        unfold escapeChar
        cases hc : escapeLetter? c with
        | none =>
            obtain ⟨hslash, hquote, -⟩ := ne_of_escapeLetter?_eq_none hc
            simp [Reader.read, Reader.next, Reader.sees, hslash, hquote]
        | some letter => simp [Reader.read, Reader.next, Reader.sees]
      rw [escape, List.flatMap_cons]
      exact Reader.read_append hchar ih

theorem toList_quotedInStages
    (s : String) : (quotedInStages s).toList = ['"'] ++ (escape s.toList ++ ['"']) := by
  rw [quotedInStages_eq_quoted]
  exact String.toList_ofList

theorem shows_quoted (s : String) : Shows (quotedInStages s).toList ['"', '"'] := by
  have hopen : Reader.read ⟨.code, 0⟩ ['"'] = some (['"'], ⟨.quoted, 0⟩) := rfl
  have hclose : Reader.read ⟨.quoted, 0⟩ ['"'] = some (['"'], ⟨.code, 0⟩) := rfl
  rw [toList_quotedInStages]
  exact Reader.read_append hopen (Reader.read_append (read_escape s.toList) hclose)

/-! ## Documents -/

/-- With `i` brackets open before it, the document leaves `j` brackets open at every width. -/
def DocNest (i j : Nat) (doc : Doc) : Prop := ∀ w, Nest i j (doc.render w)

namespace DocNest

variable {i j k : Nat} {doc doc' : Doc}

theorem nil : DocNest i i [] := fun _ => .nil

theorem append (h : DocNest i j doc) (h' : DocNest j k doc') : DocNest i k (doc ++ doc') := by
  intro w
  rw [Doc.render_append]
  exact (h w).append (h' w)

theorem text
    {s : String} (hs : Nest i j s.toList) (h : DocNest j k doc) : DocNest i k (.text s :: doc) :=
  fun w => hs.append (h w)

theorem deeper (h : DocNest i j doc) : DocNest (i + 1) (j + 1) doc := fun w => (h w).deeper

theorem lineBreak
    {depth : Nat} (h : DocNest i j doc) : DocNest i j (.lineBreak depth :: doc) := by
  intro w
  have hspaces : Shows ('\n' :: List.replicate (depth * w) ' ')
      ('\n' :: List.replicate (depth * w) ' ') := by
    refine shows_of_isFlat (List.forall_mem_cons.mpr ⟨by decide, fun c hc => ?_⟩)
    rw [List.eq_of_mem_replicate hc]
    decide
  exact hspaces.nest.inside.append (h w)

/-- A document between brackets. -/
theorem enclosed
    {opening closing : String} (ho : Nest 0 1 opening.toList) (h : DocNest 0 0 doc)
    (hc : Nest 1 0 closing.toList) : DocNest 0 0 (.text opening :: doc ++ [.text closing]) :=
  (DocNest.text ho h.deeper).append (.text hc .nil)

theorem joinWith
    {docs : List Doc} (separator : String) (hseparator : Nest i i separator.toList)
    (h : ∀ doc ∈ docs, DocNest i i doc) : DocNest i i (Doc.joinWith separator docs) := by
  induction docs with
  | nil => exact .nil
  | cons doc docs ih =>
      obtain ⟨hdoc, hdocs⟩ := List.forall_mem_cons.mp h
      cases docs with
      | nil => exact hdoc
      | cons doc' docs => exact hdoc.append (.text hseparator (ih hdocs))

end DocNest

/-! ## The end of an outline -/

/-- The character before the word at the end of a text. -/
def beforeWord (isWord : Char → Bool) (t : List Char) : Option Char :=
  (t.reverse.dropWhile isWord).head?

section Ends

variable {isWord : Char → Bool} {t word : List Char} {c : Char}

theorem beforeWord_word (h : ∀ c ∈ word, isWord c = true) : beforeWord isWord word = none := by
  rw [beforeWord, ← List.append_nil word.reverse,
    List.dropWhile_append_of_pos fun c hc => h c (List.mem_reverse.mp hc)]
  rfl

theorem beforeWord_append_word
    (t : List Char) (hc : isWord c = false) (h : ∀ c ∈ word, isWord c = true) :
    beforeWord isWord (t ++ c :: word) = some c := by
  have hreverse : (t ++ c :: word).reverse = word.reverse ++ c :: t.reverse := by simp
  rw [beforeWord, hreverse,
    List.dropWhile_append_of_pos fun c hc => h c (List.mem_reverse.mp hc)]
  simp [hc]

theorem beforeWord_concat
    (t : List Char) (hc : isWord c = false) : beforeWord isWord (t ++ [c]) = some c :=
  beforeWord_append_word t hc fun _ h => absurd h List.not_mem_nil

/-- A pair of brackets ends the outline. -/
theorem beforeWord_pair
    (t : List Char) (opening : Char) (hc : isWord c = false) :
    beforeWord isWord (t ++ [opening, c]) = some c := by
  have hlast := beforeWord_concat (t ++ [opening]) hc
  rwa [List.append_assoc] at hlast

end Ends

/-! ## Names -/

theorem nest_append
    {s t : String} {i j k : Nat} (hs : Nest i j s.toList) (ht : Nest j k t.toList) :
    Nest i k (s ++ t).toList := by
  rw [String.toList_append]
  exact hs.append ht

theorem nest_commaSeparated
    {texts : List String} {i : Nat} (h : ∀ t ∈ texts, Nest 0 0 t.toList) :
    Nest i i (commaSeparated texts).toList := by
  rw [commaSeparated, String.toList_intercalate]
  induction texts with
  | nil => exact .nil
  | cons text texts ih =>
      obtain ⟨htext, htexts⟩ := List.forall_mem_cons.mp h
      cases texts with
      | nil => simpa using htext.inside
      | cons next texts =>
          have hrest := ih htexts
          have hcomma : Nest 0 0 ", ".toList := by decide
          rw [List.map_cons, List.map_cons, List.intercalate_cons_cons, ← List.map_cons]
          exact (htext.inside.append hcomma.inside).append hrest

end Text

end Bracket
