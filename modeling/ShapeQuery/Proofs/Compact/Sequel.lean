import ShapeQuery.Proofs.Compact.Termination

/-!
What stands behind a text. A reader that has read a text to its end does the same where the text
goes on with a closing bracket, or with a blank and a cardinality: it stops at the same place with
the same result. There are two ways in which it does not. A comment at the end of the text takes in
what follows, and a backslash at the end makes an escape of the next character; then the reader does
not get to the end of the text alone.
-/
namespace ShapeQuery.Compact

/-- A text that stands behind another one: a mark and what follows it. A blank
stands before the mark unless it is a closing bracket. -/
structure Sequel where
  spaced : Bool
  mark : Char
  more : List Char
  isMark : mark ∈ [')', '?', '*', '+', '{']
  adjacent : spaced = false → mark = ')'
  plain : '\n' ∉ more ∧ '/' ∉ more
  noNumeral : numeral? (mark :: more) = none

/-- A text in front of which a word ends: it starts with a blank or a closing
bracket. -/
def Stops (text : List Char) : Prop :=
  ∃ first more, text = first :: more ∧ first ∈ [' ', ')']

namespace Sequel

theorem isMark_closing : ')' ∈ [')', '?', '*', '+', '{'] :=
  List.mem_cons_self

def text (s : Sequel) : List Char :=
  if s.spaced then ' ' :: s.mark :: s.more else s.mark :: s.more

/-- What holds of the marks holds of the mark of a sequel. -/
theorem of_mark (s : Sequel) (test : Char → Bool)
    (all : [')', '?', '*', '+', '{'].all test = true) : test s.mark = true :=
  List.all_eq_true.mp all _ s.isMark

theorem stops (s : Sequel) : Stops s.text := by
  unfold text
  cases spaced : s.spaced with
  | true => exact ⟨' ', _, rfl, by simp⟩
  | false => exact ⟨s.mark, _, rfl, by simp [s.adjacent spaced]⟩

/-- What holds of a blank and of a closing bracket holds of the first character
of a sequel. -/
theorem of_first (test : Char → Bool) (all : [' ', ')'].all test = true) {first : Char}
    (member : first ∈ [' ', ')']) : test first = true :=
  List.all_eq_true.mp all _ member

/-- A character that is no blank and no mark stands in a sequel only behind its mark. -/
theorem not_mem_text {c : Char} (s : Sequel) (blank : c ≠ ' ')
    (other : c ∉ [')', '?', '*', '+', '{']) (rest : c ∉ s.more) : c ∉ s.text := by
  have mark : c ≠ s.mark := fun same => other (same ▸ s.isMark)
  unfold text
  split <;> simp [blank, mark, rest]

theorem newline_not_mem (s : Sequel) : '\n' ∉ s.text :=
  s.not_mem_text (by decide) (by decide) s.plain.1

theorem slash_not_mem (s : Sequel) : '/' ∉ s.text :=
  s.not_mem_text (by decide) (by decide) s.plain.2

def seen (s : Sequel) : List Char :=
  s.mark :: s.more

theorem isSolid_mark (s : Sequel) : isSolid s.mark = true :=
  s.of_mark isSolid (by decide)

/-- The blank before the mark is skipped, and the mark is seen. -/
theorem skipText_text (s : Sequel) : skipText s.text = s.seen := by
  have mark : skipText (s.mark :: s.more) = s.seen := skipText_solid s.isSolid_mark _
  unfold text
  split
  · exact mark
  · exact mark

@[simp] theorem skipText_seen (s : Sequel) : skipText s.seen = s.seen :=
  skipText_solid s.isSolid_mark _

end Sequel

/-! ### Blanks and comments -/

/-- Without a line end a line comment takes in the whole text, and a sequel has
no line end. -/
theorem blankLength_lineComment {text : List Char} (none : '\n' ∉ text) :
    blankLength .lineComment text = text.length := by
  induction text with
  | nil => rfl
  | cons c rest ih =>
    rw [List.mem_cons, not_or] at none
    rw [blankLength, if_neg (Ne.symm none.1), ih none.2, List.length_cons]

theorem blankLength_blockComment {text : List Char} (none : '/' ∉ text) :
    blankLength .blockComment text = text.length := by
  induction text with
  | nil => rfl
  | cons c rest ih =>
    rw [List.mem_cons, not_or] at none
    rw [blankLength, ih none.2, List.length_cons]
    rintro more - rfl
    exact none.2 List.mem_cons_self

/-- What is left behind blanks and comments, if a text starts inside of some. -/
def skipFrom (mode : Skipping) (text : List Char) : List Char :=
  text.drop (blankLength mode text)

theorem skipFrom_line (c : Char) (text : List Char) :
    skipFrom .lineComment (c :: text) =
      skipFrom (if c = '\n' then .blanks else .lineComment) text := by
  rw [skipFrom, blankLength, List.drop_succ_cons]
  rfl

theorem skipFrom_blank {c : Char} (blank : isBlank c = true) (text : List Char) :
    skipFrom .blanks (c :: text) = skipFrom .blanks text := by
  rw [skipFrom, blankLength, if_pos blank, List.drop_succ_cons]
  · rfl
  · rintro rfl
    cases blank
  · rintro more rfl
    cases blank

/-- A character that does not close a block comment is skipped with it. -/
theorem skipFrom_block {c : Char} {text : List Char} (inside : c = '*' → text.head? ≠ some '/') :
    skipFrom .blockComment (c :: text) = skipFrom .blockComment text := by
  rw [skipFrom, blankLength, List.drop_succ_cons]
  · rfl
  · rintro more rfl rfl
    exact inside rfl rfl

theorem skipFrom_solid {c : Char} {text : List Char} (solid : ¬ isBlank c = true) (noLine : c ≠ '#')
    (noBlock : c = '/' → text.head? ≠ some '*') : skipFrom .blanks (c :: text) = c :: text := by
  rw [skipFrom, blankLength, if_neg solid, List.drop_zero]
  · exact noLine
  · rintro more rfl rfl
    exact noBlock rfl rfl

/-- The first character of a text is still first if something stands behind it. -/
theorem head?_append_ne {text behind : List Char} {c : Char} (other : text.head? ≠ some c)
    (plain : [' ', ')'].all (· != c) = true) (stops : Stops behind) :
    (text ++ behind).head? ≠ some c := by
  cases text with
  | cons first rest => exact other
  | nil =>
    obtain ⟨first, more, same, member⟩ := stops
    rw [List.nil_append, same, List.head?_cons]
    rintro ⟨⟩
    simpa using Sequel.of_first _ plain member

/-- What follows stays where something is left to read. Otherwise all of a
sequel but the first blank is left, or all of it belongs to a comment. -/
def SkipsAlike (mode : Skipping) (text : List Char) : Prop :=
  (skipFrom mode text ≠ [] ∧
    ∀ {behind}, Stops behind → skipFrom mode (text ++ behind) = skipFrom mode text ++ behind) ∨
  (skipFrom mode text = [] ∧ ((∀ s : Sequel, skipFrom mode (text ++ s.text) = s.seen) ∨
    ∀ s : Sequel, skipFrom mode (text ++ s.text) = []))

/-- One character is skipped alike with and without a sequel, so the rest
decides. This is the step of the induction over a text. -/
theorem SkipsAlike.step {mode next : Skipping} {c : Char} {text : List Char}
    (alike : SkipsAlike next text) (alone : skipFrom mode (c :: text) = skipFrom next text)
    (followed : ∀ {behind}, Stops behind →
      skipFrom mode (c :: text ++ behind) = skipFrom next (text ++ behind)) :
    SkipsAlike mode (c :: text) := by
  unfold SkipsAlike
  rw [alone]
  refine alike.imp (fun something => ⟨something.1, fun stops => ?_⟩) fun ended => ⟨ended.1, ?_⟩
  · rw [followed stops, something.2 stops]
  · simpa only [followed (Sequel.stops _)] using ended.2

/-- Whatever the reader is inside of, it skips alike with a sequel behind the
text. Induction on the text, with a case for each mode. -/
theorem skipsAlike (mode : Skipping) (text : List Char) : SkipsAlike mode text := by
  fun_induction blankLength mode text with
  | case1 mode =>
    refine Or.inr ⟨List.drop_nil, ?_⟩
    cases mode with
    | blanks => exact Or.inl fun s => s.skipText_text
    | lineComment =>
      refine Or.inr fun s => ?_
      rw [List.nil_append, skipFrom, blankLength_lineComment s.newline_not_mem, List.drop_length]
    | blockComment =>
      refine Or.inr fun s => ?_
      rw [List.nil_append, skipFrom, blankLength_blockComment s.slash_not_mem, List.drop_length]
  | case2 rest ih => exact ih
  | case3 rest ih => exact ih
  | case4 c rest noLine noBlock blank ih =>
    exact ih.step (skipFrom_blank blank rest) fun _ => skipFrom_blank blank _
  | case5 c rest noLine noBlock solid =>
    have apart : c = '/' → rest.head? ≠ some '*' := by
      rintro rfl star
      obtain ⟨more, rfl⟩ := List.head?_eq_some_iff.mp star
      exact noBlock more rfl rfl
    have stays : skipFrom .blanks (c :: rest) = c :: rest := skipFrom_solid solid noLine apart
    refine Or.inl ⟨by simp [stays], fun stops => ?_⟩
    rw [stays, List.cons_append]
    exact skipFrom_solid solid noLine fun slash => head?_append_ne (apart slash) (by decide) stops
  | case6 c rest ih => exact ih.step (skipFrom_line c rest) fun _ => skipFrom_line c _
  | case7 rest ih => exact ih
  | case8 c rest noEnd ih =>
    have apart : c = '*' → rest.head? ≠ some '/' := by
      rintro rfl slash
      obtain ⟨more, rfl⟩ := List.head?_eq_some_iff.mp slash
      exact noEnd more rfl rfl
    refine ih.step (skipFrom_block apart) fun stops => ?_
    exact skipFrom_block fun star => head?_append_ne (apart star) (by decide) stops

/-- Where something is left behind blanks and comments, it is left with a
sequel too. -/
theorem skipText_append {text behind : List Char} (something : skipText text ≠ [])
    (stops : Stops behind) : skipText (text ++ behind) = skipText text ++ behind := by
  rcases skipsAlike .blanks text with ⟨-, attached⟩ | ⟨none, -⟩
  · exact attached stops
  · exact absurd none something

/-! ### Reading on -/

/-- Cursors in texts that go on with sequels, beside a cursor in the text
alone. Where all of that text is read, they stand in front of the sequels, or
all of them at the end of their texts, inside a comment; if it does not matter
how the end of the text is read, nothing is said. -/
def Trails {ι : Type} (back : ι → Sequel) (exact : Bool) (c : Cursor) (ds : ι → Cursor) : Prop :=
  (∀ i, (ds i).rest = c.rest ++ (back i).text) ∨
  (c.rest = [] ∧ (exact = true → (∀ i, (ds i).rest = (back i).seen) ∨ ∀ i, (ds i).rest = []))

/-- What comes of reading in texts with sequels if in the text alone a result
comes out of it: the same. It is left open if the reader is stuck, or if it is
at the end and that does not matter. -/
def Resumes {ι α : Type} (back : ι → Sequel) (exact : Bool) (stuck : List Char → Prop)
    (outcome : ι → Except Fault (α × Cursor)) (result : α) (c : Cursor) : Prop :=
  stuck c.rest ∨ (exact = false ∧ c.rest = []) ∨
    ∃ ds, (∀ i, outcome i = .ok (result, ds i)) ∧ Trails back exact c ds

/-- A reader for which it makes no difference what stands behind the text that
it reads. It may be stuck at the end of the text, and then it does not
return. -/
structure Continues {ι α : Type} (back : ι → Sequel) (exact : Bool) (stuck : List Char → Prop)
    (scan : Scan α) : Prop where
  ends : ∀ {c result c'}, scan c = .ok (result, c') → c.rest = [] → c'.rest = []
  sticks : ∀ {c result c'}, scan c = .ok (result, c') → stuck c.rest → stuck c'.rest
  resumes : ∀ {c result c' ds}, scan c = .ok (result, c') → Trails back exact c ds →
    Resumes back exact stuck (fun i => scan (ds i)) result c'

section

variable {ι α β : Type} {back : ι → Sequel} {exact : Bool} {stuck : List Char → Prop} {c : Cursor}
  {ds : ι → Cursor}

theorem Cursor.skip_rest (c : Cursor) : c.skip.rest = skipText c.rest :=
  rfl

theorem Cursor.advance_zero (c : Cursor) : c.advance 0 = c :=
  rfl

/-- In front of something solid there is nothing to skip. -/
theorem Cursor.skip_eq_self {c : Cursor} (something : c.rest ≠ [])
    (solid : skipText c.rest = c.rest) : c.skip = c := by
  have lengths := congrArg List.length solid
  have positive := List.length_pos_iff.mpr something
  rw [skipText, List.length_drop] at lengths
  have none : blankLength .blanks c.rest = 0 := by omega
  rw [Cursor.skip, none, Cursor.advance_zero]

/-- Behind blanks and comments there are none to skip. -/
@[simp] theorem Cursor.skip_skip (c : Cursor) : c.skip.skip = c.skip := by
  have none : blankLength .blanks c.skip.rest = 0 := blankLength_drop .blanks c.rest
  rw [Cursor.skip, none, Cursor.advance_zero]

/-- Behind blanks and comments the cursors are where the text goes on, or at its end. -/
theorem Trails.skip_cases (trails : Trails back exact c ds) :
    (skipText c.rest ≠ [] ∧ ∀ i, skipText (ds i).rest = skipText c.rest ++ (back i).text) ∨
    (skipText c.rest = [] ∧
      (exact = true → (∀ i, skipText (ds i).rest = (back i).seen) ∨
        ∀ i, skipText (ds i).rest = [])) := by
  rcases trails with attached | ⟨ended, there⟩
  · simp only [attached]
    rcases skipsAlike .blanks c.rest with ⟨something, apart⟩ | ⟨nothing, seen | open_⟩
    · exact Or.inl ⟨something, fun i => apart (back i).stops⟩
    · exact Or.inr ⟨nothing, fun _ => Or.inl fun i => seen (back i)⟩
    · exact Or.inr ⟨nothing, fun _ => Or.inr fun i => open_ (back i)⟩
  · refine Or.inr ⟨by rw [ended]; rfl, fun exactly => ?_⟩
    rcases there exactly with seen | open_
    · exact Or.inl fun i => by rw [seen, Sequel.skipText_seen]
    · exact Or.inr fun i => by rw [open_]; rfl

/-- The cursors still trail behind blanks and comments. -/
theorem Trails.skip (trails : Trails back exact c ds) :
    Trails back exact c.skip fun i => (ds i).skip := by
  rcases trails.skip_cases with ⟨-, attached⟩ | ended
  · exact Or.inl attached
  · exact Or.inr ended

/-- If it does not matter how the end is read, a reader that is there is done. -/
theorem Trails.attached (trails : Trails back false c ds) :
    c.rest = [] ∨ ∀ i, (ds i).rest = c.rest ++ (back i).text :=
  trails.elim Or.inr fun ended => Or.inl ended.1

theorem Trails.loosen (trails : Trails back exact c ds) : Trails back false c ds := by
  rcases trails with attached | ⟨ended, -⟩
  · exact Or.inl attached
  · exact Or.inr ⟨ended, nofun⟩

/-- A sequence that returns has a first reader that returns and a second one
that goes on from there. -/
theorem scan_bind_ok {scan : Scan α} {next : α → Scan β} {result : β} {c' : Cursor}
    (read : (scan >>= next) c = .ok (result, c')) :
    ∃ value middle, scan c = .ok (value, middle) ∧ next value middle = .ok (result, c') := by
  simp only [Bind.bind, StateT.bind, Except.bind] at read
  cases outcome : scan c with
  | error fault =>
    rw [outcome] at read
    cases read
  | ok pair =>
    rw [outcome] at read
    exact ⟨pair.1, pair.2, rfl, read⟩

theorem scan_bind_of_ok {scan : Scan α} {next : α → Scan β} {value : α} {middle : Cursor}
    (read : scan c = .ok (value, middle)) : (scan >>= next) c = next value middle := by
  simp only [Bind.bind, StateT.bind, Except.bind, read]

/-- A reader that begins by skipping: in front of blanks and comments and
behind them it does the same. -/
def SkipsFirst (scan : Scan α) : Prop :=
  ∀ c : Cursor, scan c.skip = scan c

theorem SkipsFirst.bind {scan : Scan α} (first : SkipsFirst scan) (next : α → Scan β) :
    SkipsFirst (scan >>= next) := by
  intro c
  simp only [Bind.bind, StateT.bind, first c]

theorem Looks.skipsFirst {scan : Scan α} {view : List Char → α} (looks : Looks scan view) :
    SkipsFirst scan := by
  intro c
  rw [looks, looks, Cursor.skip_skip, Cursor.skip_rest, skipText_skipText]

namespace Scan

theorem skip_skipsFirst : SkipsFirst skip := by
  intro c
  change Except.ok ((), c.skip.skip) = .ok ((), c.skip)
  rw [Cursor.skip_skip]

theorem tryText_skipsFirst (text : String) : SkipsFirst (tryText text) :=
  skip_skipsFirst.bind _

theorem tryKeyword_skipsFirst (keyword : String) : SkipsFirst (tryKeyword keyword) :=
  (looks_atKeyword keyword).skipsFirst.bind _

end Scan

namespace Continues

variable {scan : Scan α} {next : α → Scan β}

theorem pure (result : α) : Continues back exact stuck (Pure.pure result) where
  ends := by
    rintro c value c' ⟨⟩ ended
    exact ended
  sticks := by
    rintro c value c' ⟨⟩ jam
    exact jam
  resumes := by
    rintro c value c' ds ⟨⟩ trails
    exact Or.inr (Or.inr ⟨ds, fun _ => rfl, trails⟩)

theorem never (fails : ∀ c result c', scan c ≠ .ok (result, c')) :
    Continues back exact stuck scan where
  ends := fun read => absurd read (fails _ _ _)
  sticks := fun read => absurd read (fails _ _ _)
  resumes := fun read => absurd read (fails _ _ _)

theorem throw (fault : Fault) : Continues back exact stuck (MonadExcept.throw fault : Scan α) :=
  .never nofun

theorem fail (problem : Problem) : Continues back exact stuck (Scan.fail problem : Scan α) :=
  .never nofun

theorem lift (checked : Except Fault α) : Continues back exact stuck (liftM checked : Scan α) := by
  cases checked with
  | error fault => exact .throw fault
  | ok result => exact .pure result

/-- What two readers do in a row makes no difference if neither of them makes one. -/
theorem bind (first : Continues back exact stuck scan)
    (second : ∀ result, Continues back exact stuck (next result)) :
    Continues back exact stuck (scan >>= next) where
  ends := by
    intro c result c' read ended
    obtain ⟨value, middle, readFirst, readNext⟩ := scan_bind_ok read
    exact (second value).ends readNext (first.ends readFirst ended)
  sticks := by
    intro c result c' read jam
    obtain ⟨value, middle, readFirst, readNext⟩ := scan_bind_ok read
    exact (second value).sticks readNext (first.sticks readFirst jam)
  resumes := by
    intro c result c' ds read trails
    obtain ⟨value, middle, readFirst, readNext⟩ := scan_bind_ok read
    rcases first.resumes readFirst trails with jam | ⟨loose, ended⟩ | ⟨ms, same, trailsNext⟩
    · exact Or.inl ((second value).sticks readNext jam)
    · exact Or.inr (Or.inl ⟨loose, (second value).ends readNext ended⟩)
    · have outcome : (fun i => (scan >>= next) (ds i)) = fun i => next value (ms i) :=
        funext fun i => scan_bind_of_ok (same i)
      rw [outcome]
      exact (second value).resumes readNext trailsNext

theorem ite {condition : Prop} [Decidable condition] {yes no : Scan α}
    (holds : condition → Continues back exact stuck yes)
    (fails : ¬ condition → Continues back exact stuck no) :
    Continues back exact stuck (if condition then yes else no) := by
  split
  · next yes => exact holds yes
  · next no => exact fails no

theorem test {question : Scan Bool} {yes no : Scan β} (first : Continues back exact stuck question)
    (holds : Continues back exact stuck yes) (fails : Continues back exact stuck no) :
    Continues back exact stuck (question >>= fun found => if found = true then yes else no) :=
  .bind first fun _ => .ite (fun _ => holds) fun _ => fails

/-- More texts may count as stuck if a reader does not get past them. -/
theorem widen {other : List Char → Prop} (continues : Continues back exact stuck scan)
    (keeps : ∀ {c result c'}, scan c = .ok (result, c') → other c.rest → other c'.rest) :
    Continues back exact (fun text => stuck text ∨ other text) scan where
  ends := continues.ends
  sticks := fun read jam => jam.imp (continues.sticks read) (keeps read)
  resumes := fun read trails => (continues.resumes read trails).imp Or.inl id

/-- Behind a reader for which the end does not matter, one that needs a
character that is there. -/
theorem bindFirm {other : List Char → Prop} (first : Continues back false other scan)
    (second : ∀ result, Continues back exact stuck (next result))
    (firm : ∀ value c result c', c.rest = [] → next value c ≠ .ok (result, c'))
    (leaves : ∀ {value c result c'}, next value c = .ok (result, c') → other c.rest → stuck c'.rest)
    (enters : ∀ {text}, stuck text → other text) : Continues back exact stuck (scan >>= next) where
  ends := by
    intro c result c' read ended
    obtain ⟨value, middle, readFirst, readNext⟩ := scan_bind_ok read
    exact (second value).ends readNext (first.ends readFirst ended)
  sticks := by
    intro c result c' read jam
    obtain ⟨value, middle, readFirst, readNext⟩ := scan_bind_ok read
    exact leaves readNext (first.sticks readFirst (enters jam))
  resumes := by
    intro c result c' ds read trails
    obtain ⟨value, middle, readFirst, readNext⟩ := scan_bind_ok read
    rcases first.resumes readFirst trails.loosen with jam | ⟨-, ended⟩ | ⟨ms, same, trailsNext⟩
    · exact Or.inl (leaves readNext jam)
    · exact absurd readNext (firm _ _ _ _ ended)
    · have outcome : (fun i => (scan >>= next) (ds i)) = fun i => next value (ms i) :=
        funext fun i => scan_bind_of_ok (same i)
      rw [outcome]
      rcases trailsNext.attached with ended | attached
      · exact absurd readNext (firm _ _ _ _ ended)
      · exact (second value).resumes readNext (Or.inl attached)

/-- The end of the text does not matter for the first reader if the second one
needs a character that is there. -/
theorem firm (first : Continues back false stuck scan)
    (second : ∀ result, Continues back exact stuck (next result))
    (fails : ∀ value c result c', c.rest = [] → next value c ≠ .ok (result, c')) :
    Continues back exact stuck (scan >>= next) :=
  .bindFirm first second fails (fun read jam => (second _).sticks read jam) id

/-- A look ahead. What it tells is the same with a sequel behind the text, or
the reader is stuck then. -/
theorem lookOr {view : List Char → α} (looks : Looks scan view)
    (solid : ∀ {text}, stuck text → skipText text = text)
    (same : ∀ {c result c'}, c.rest ≠ [] → next (view c.rest) c = .ok (result, c') →
      stuck c'.rest ∨ ∀ i, view (c.rest ++ (back i).text) = view c.rest)
    (final : exact = true → ∀ i, next (view (back i).seen) = next (view []))
    (second : ∀ value, Continues back exact stuck (next value)) :
    Continues back exact stuck (scan >>= next) where
  ends := by
    intro c result c' read ended
    rw [scan_bind_of_ok (looks c)] at read
    refine (second _).ends read ?_
    change skipText c.rest = []
    rw [ended]
    rfl
  sticks := by
    intro c result c' read jam
    rw [scan_bind_of_ok (looks c)] at read
    refine (second _).sticks read ?_
    change stuck (skipText c.rest)
    rwa [solid jam]
  resumes := by
    intro c result c' ds read trails
    rw [scan_bind_of_ok (looks c)] at read
    have outcome : (fun i => (scan >>= next) (ds i)) =
        fun i => next (view (skipText (ds i).rest)) (ds i).skip :=
      funext fun i => scan_bind_of_ok (looks (ds i))
    have further : Trails back exact c.skip fun i => (ds i).skip := trails.skip
    rw [outcome]
    rcases trails.skip_cases with ⟨something, attached⟩ | ⟨nothing, there⟩
    · rcases same (c := c.skip) something read with jam | alike
      · exact Or.inl jam
      · have here : ∀ i, view (skipText (ds i).rest) = view (skipText c.rest) :=
          fun i => (congrArg view (attached i)).trans (alike i)
        simp only [here]
        exact (second _).resumes read further
    · cases exact with
      | false => exact Or.inr (Or.inl ⟨rfl, (second _).ends read nothing⟩)
      | true =>
        rw [nothing] at read
        have alike : ∀ i, next (view (skipText (ds i).rest)) = next (view []) := by
          intro i
          rcases there rfl with seen | spent
          · rw [seen i, final rfl i]
          · rw [spent i]
        simp only [alike]
        exact (second _).resumes read further

/-- A look ahead that tells the same with a sequel behind the text. -/
theorem look {view : List Char → α} (looks : Looks scan view)
    (solid : ∀ {text}, stuck text → skipText text = text)
    (same : ∀ text i, text ≠ [] → view (text ++ (back i).text) = view text)
    (final : exact = true → ∀ i, next (view (back i).seen) = next (view []))
    (second : ∀ value, Continues back exact stuck (next value)) :
    Continues back exact stuck (scan >>= next) :=
  .lookOr looks solid (fun something _ => Or.inr fun i => same _ i something) final second

theorem looks {view : List Char → α} (looks : Looks scan view)
    (solid : ∀ {text}, stuck text → skipText text = text)
    (same : ∀ text i, text ≠ [] → view (text ++ (back i).text) = view text)
    (final : exact = true → ∀ i, view (back i).seen = view []) :
    Continues back exact stuck scan := by
  have looked : Continues back exact stuck (scan >>= Pure.pure) :=
    .look looks solid same (fun exactly i => by rw [final exactly i]) fun value => .pure value
  rwa [bind_pure] at looked

end Continues

/-- A reader that takes a token, told by what comes next, or fails. What it
finds is a function of the text, so it can be compared with and without a
sequel. -/
structure Token (scan : Scan α) (find : List Char → Option (α × Nat)) : Prop where
  found : ∀ {c result width}, find (skipText c.rest) = some (result, width) →
    scan c = .ok (result, c.skip.advance width)
  missed : ∀ {c}, find (skipText c.rest) = none → ∀ result c', scan c ≠ .ok (result, c')

theorem Token.find_eq {scan : Scan α} {find : List Char → Option (α × Nat)}
    (token : Token scan find) {result : α} {c' : Cursor} (read : scan c = .ok (result, c')) :
    ∃ width, find (skipText c.rest) = some (result, width) ∧ c' = c.skip.advance width := by
  cases outcome : find (skipText c.rest) with
  | none => exact absurd read (token.missed outcome _ _)
  | some pair =>
    have same := (token.found outcome).symm.trans read
    cases same
    exact ⟨pair.2, rfl, rfl⟩

/-- A reader of tokens continues if it finds the same with a sequel behind the
text, or nothing at the end. -/
theorem Continues.token {scan : Scan α} {find : List Char → Option (α × Nat)}
    (token : Token scan find) (solid : ∀ {text}, stuck text → skipText text = text)
    (stays : ∀ {text result width}, stuck text → find text = some (result, width) →
      stuck (text.drop width))
    (inside : ∀ {text result width}, text ≠ [] → find text = some (result, width) →
      stuck (text.drop width) ∨ (exact = false ∧ text.drop width = []) ∨
      (width ≤ text.length ∧ ∀ i, find (text ++ (back i).text) = some (result, width)))
    (final : exact = true → ∀ {result width}, find [] = some (result, width) →
      ∀ i, find (back i).seen = some (result, 0)) : Continues back exact stuck scan where
  ends := by
    intro c result c' read ended
    obtain ⟨width, -, rfl⟩ := token.find_eq read
    change (skipText c.rest).drop width = []
    rw [ended]
    exact List.drop_nil
  sticks := by
    intro c result c' read jam
    obtain ⟨width, here, rfl⟩ := token.find_eq read
    rw [solid jam] at here
    change stuck ((skipText c.rest).drop width)
    rw [solid jam]
    exact stays jam here
  resumes := by
    intro c result c' ds read trails
    obtain ⟨width, here, rfl⟩ := token.find_eq read
    rcases trails.skip_cases with ⟨something, attached⟩ | ⟨nothing, there⟩
    · rcases inside something here with jam | loose | ⟨narrow, same⟩
      · exact Or.inl jam
      · exact Or.inr (Or.inl loose)
      · refine Or.inr (Or.inr ⟨fun i => (ds i).skip.advance width, fun i => ?_, Or.inl fun i => ?_⟩)
        · exact token.found ((congrArg find (attached i)).trans (same i))
        · rw [Cursor.advance_rest, Cursor.advance_rest, Cursor.skip_rest, attached i,
            List.drop_append_of_le_length narrow, Cursor.skip_rest]
    · have ended : (c.skip.advance width).rest = [] := by
        rw [Cursor.advance_rest, Cursor.skip_rest, nothing, List.drop_nil]
      cases exact with
      | false => exact Or.inr (Or.inl ⟨rfl, ended⟩)
      | true =>
        rw [nothing] at here
        rcases there rfl with seen | spent
        · refine Or.inr (Or.inr ⟨fun i => (ds i).skip.advance 0, fun i => ?_,
            Or.inr ⟨ended, fun _ => ?_⟩⟩)
          · exact token.found ((congrArg find (seen i)).trans (final rfl here i))
          · refine Or.inl fun i => ?_
            rw [Cursor.advance_rest, List.drop_zero, Cursor.skip_rest, seen i]
        · refine Or.inr (Or.inr ⟨fun i => (ds i).skip.advance width, fun i => ?_,
            Or.inr ⟨ended, fun _ => ?_⟩⟩)
          · exact token.found ((congrArg find (spent i)).trans here)
          · refine Or.inr fun i => ?_
            rw [Cursor.advance_rest, Cursor.skip_rest, spent i, List.drop_nil]

/-- A reader that moves over what stands right at the cursor, without a look at
blanks. -/
theorem Continues.here {scan : Scan α} (find : List Char → α × Nat)
    (reads : ∀ c : Cursor, scan c = .ok ((find c.rest).1, c.advance (find c.rest).2))
    (stays : ∀ {text}, stuck text → stuck (text.drop (find text).2))
    (narrow : ∀ text, (find text).2 ≤ text.length)
    (same : ∀ text i, find (text ++ (back i).text) = find text)
    (final : ∀ i, find (back i).seen = find []) : Continues back exact stuck scan where
  ends := by
    intro c result c' read ended
    rw [reads] at read
    cases read
    rw [Cursor.advance_rest, ended, List.drop_nil]
  sticks := by
    intro c result c' read jam
    rw [reads] at read
    cases read
    exact stays jam
  resumes := by
    intro c result c' ds read trails
    rw [reads] at read
    cases read
    rcases trails with attached | ⟨ended, there⟩
    · refine Or.inr (Or.inr ⟨fun i => (ds i).advance (find c.rest).2, fun i => ?_,
        Or.inl fun i => ?_⟩)
      · change scan (ds i) = _
        rw [reads, attached i, same]
      · rw [Cursor.advance_rest, Cursor.advance_rest, attached i,
          List.drop_append_of_le_length (narrow _)]
    · have none : (find []).2 = 0 := Nat.le_zero.mp (narrow [])
      rw [ended, none]
      cases exact with
      | false => exact Or.inr (Or.inl ⟨rfl, ended⟩)
      | true =>
        refine Or.inr (Or.inr ⟨ds, fun i => ?_, Or.inr ⟨ended, there⟩⟩)
        have alike : find (ds i).rest = find [] := by
          rcases there rfl with seen | spent
          · rw [seen i, final i]
          · rw [spent i]
        change scan (ds i) = _
        rw [reads, alike, none]
        rfl

end

/-- Points and a backslash, with nothing behind it: no reader gets past that. -/
def Jammed (text : List Char) : Prop :=
  ∃ points, text = List.replicate points '.' ++ ['\\']

namespace Jammed

variable {text : List Char}

theorem cons (jam : Jammed text) : ∃ first rest, text = first :: rest ∧ first ∈ ['.', '\\'] := by
  obtain ⟨points, rfl⟩ := jam
  cases points with
  | zero => exact ⟨'\\', [], rfl, by simp⟩
  | succ points => exact ⟨'.', List.replicate points '.' ++ ['\\'], rfl, by simp⟩

theorem ne_nil (jam : Jammed text) : text ≠ [] := by
  obtain ⟨first, rest, rfl, -⟩ := jam.cons
  exact List.cons_ne_nil first rest

/-- What holds of a point and of a backslash holds of the first character of a
text in which readers are stuck. -/
theorem of_first (jam : Jammed text) (test : Char → Bool) (all : ['.', '\\'].all test = true) :
    ∃ first rest, text = first :: rest ∧ test first = true := by
  obtain ⟨first, rest, same, member⟩ := jam.cons
  exact ⟨first, rest, same, List.all_eq_true.mp all _ member⟩

theorem skipText_eq (jam : Jammed text) : skipText text = text := by
  obtain ⟨first, rest, rfl, solid⟩ := jam.of_first isSolid (by decide)
  exact skipText_solid solid rest

theorem drop_point (jam : Jammed text) (point : text.head? = some '.') : Jammed (text.drop 1) := by
  obtain ⟨points, rfl⟩ := jam
  cases points with
  | zero => cases point
  | succ points => exact ⟨points, rfl⟩

end Jammed

end ShapeQuery.Compact
