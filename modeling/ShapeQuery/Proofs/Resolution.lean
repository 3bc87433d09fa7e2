import ShapeQuery.Iri.Reference
import ShapeQuery.Proofs.Checks
import ShapeQuery.Proofs.Splitting

/-!
Resolving an IRI reference makes up no characters. What comes out consists of characters
of the base and of the reference, of the marks between the parts of an IRI, and of
letters of a scheme in lower case.
-/
namespace ShapeQuery

namespace Iri

def Keeps (keep : Char → Prop) (text : List Char) : Prop :=
  ∀ c ∈ text, keep c

/-- A kind of characters that has the marks between the parts of an IRI and,
with a letter, its lower case. -/
structure Lasting (keep : Char → Prop) : Prop where
  lower : ∀ c, keep c → keep c.toLower
  marks : ∀ c ∈ ['/', ';', ':', '?', '#'], keep c

structure Parts.Keeps (keep : Char → Prop) (parts : Parts) : Prop where
  scheme : Iri.Keeps keep parts.scheme
  authority : Iri.Keeps keep parts.authority
  path : Iri.Keeps keep parts.path
  parameters : Iri.Keeps keep parts.parameters
  query : Iri.Keeps keep parts.query
  fragment : Iri.Keeps keep parts.fragment

section

variable {keep : Char → Prop} {text : List Char}

theorem Keeps.nil : Keeps keep [] := List.forall_mem_nil _

theorem Keeps.append {other : List Char} (first : Keeps keep text) (second : Keeps keep other) :
    Keeps keep (text ++ other) :=
  List.forall_mem_append.mpr ⟨first, second⟩

theorem Keeps.cons {c : Char} (first : keep c) (rest : Keeps keep text) : Keeps keep (c :: text) :=
  List.forall_mem_cons.mpr ⟨first, rest⟩

/-- A text with no other characters is of the same kind. -/
theorem Keeps.subset {other : List Char} (all : Keeps keep text) (fewer : ∀ c ∈ other, c ∈ text) :
    Keeps keep other :=
  fun c member => all c (fewer c member)

theorem Keeps.ite {condition : Prop} [Decidable condition] {one two : List Char}
    (first : Keeps keep one) (second : Keeps keep two) :
    Keeps keep (if condition then one else two) := by
  split
  · exact first
  · exact second

theorem cutFirst_keeps (all : Keeps keep text) (mark : Char) :
    Keeps keep (Text.cutFirst mark text).1 ∧ Keeps keep (((Text.cutFirst mark text).2).getD []) :=
  ⟨all.subset fun _ => Text.mem_cutFirst_fst, all.subset fun _ => Text.mem_cutFirst_snd⟩

theorem clean_keeps (all : Keeps keep text) : Keeps keep (clean text) := by
  refine all.subset fun c member => ?_
  exact (List.dropWhile_suffix _).subset (List.mem_filter.mp member).1

/-- A scheme is cut off in lower case, so the kind has to keep that. -/
theorem cutScheme?_keeps (lasting : Lasting keep) (all : Keeps keep text) {scheme rest : List Char}
    (cut : cutScheme? text = some (scheme, rest)) : Keeps keep scheme ∧ Keeps keep rest := by
  obtain ⟨front, back⟩ := cutFirst_keeps all ':'
  unfold cutScheme? at cut
  split at cut
  · next first more after there =>
    rw [there] at front back
    split at cut
    · cases cut
      refine ⟨fun c member => ?_, back⟩
      obtain ⟨original, among, rfl⟩ := List.mem_map.mp member
      exact lasting.lower original (front original among)
    · cases cut
  · cases cut

theorem cutAuthority_keeps (all : Keeps keep text) :
    Keeps keep (cutAuthority text).1 ∧ Keeps keep (cutAuthority text).2 := by
  unfold cutAuthority
  split
  · next rest =>
    have behind : Keeps keep rest := all.subset fun c member => by simp [member]
    refine ⟨behind.subset fun c member => ?_, behind.subset fun c => List.mem_of_mem_drop⟩
    exact (List.takeWhile_prefix _).subset member
  · exact ⟨.nil, all⟩

theorem cutParameters_keeps (all : Keeps keep text) :
    Keeps keep (cutParameters text).1 ∧ Keeps keep (cutParameters text).2 := by
  have last : Keeps keep (text.reverse.takeWhile (· != '/')).reverse := by
    refine all.subset fun c member => ?_
    exact List.mem_reverse.mp ((List.takeWhile_prefix _).subset (List.mem_reverse.mp member))
  unfold cutParameters
  dsimp only
  generalize (text.reverse.takeWhile (· != '/')).reverse = segment at last
  obtain ⟨front, back⟩ := cutFirst_keeps last ';'
  split
  · next name parameters there =>
    rw [there] at front back
    exact ⟨.append (all.subset fun c => List.mem_of_mem_take) front, back⟩
  · exact ⟨all, .nil⟩

/-- The parts of a reference have its characters only, and those of the scheme
that is given for it. -/
theorem split_keeps (lasting : Lasting keep) {scheme : List Char} (given : Keeps keep scheme)
    (all : Keeps keep text) {parts : Parts} (cut : split scheme text = .ok parts) :
    parts.Keeps keep := by
  have cleaned := clean_keeps all
  have schemed : Keeps keep ((cutScheme? (clean text)).getD (scheme, clean text)).1 ∧
      Keeps keep ((cutScheme? (clean text)).getD (scheme, clean text)).2 := by
    cases found : cutScheme? (clean text) with
    | none => exact ⟨given, cleaned⟩
    | some pair => exact cutScheme?_keeps lasting cleaned found
  obtain ⟨authority, rest⟩ := cutAuthority_keeps schemed.2
  unfold split at cut
  dsimp only at cut
  obtain ⟨-, -, cut⟩ := checked_bind_ok cut
  obtain ⟨-, -, cut⟩ := checked_bind_ok cut
  cases cut
  obtain ⟨rest, fragment⟩ := cutFirst_keeps rest '#'
  obtain ⟨path, query⟩ := cutFirst_keeps rest '?'
  obtain ⟨directory, parameters⟩ := cutParameters_keeps path
  constructor
  case scheme => exact schemed.1
  case authority => exact authority
  case path =>
    dsimp only
    split
    · exact directory
    · exact path
  case parameters =>
    dsimp only
    split
    · exact parameters
    · exact .nil
  case query => exact query
  case fragment => exact fragment

/-- Parts are put together with marks between them, which the kind has. -/
theorem join_keeps (lasting : Lasting keep) {parts : Parts} (all : parts.Keeps keep) :
    Keeps keep parts.join := by
  have slash : keep '/' := lasting.marks _ (by decide)
  have path : Keeps keep
      (if parts.parameters.isEmpty then parts.path else parts.path ++ ';' :: parts.parameters) :=
    .ite all.path (all.path.append (.cons (lasting.marks _ (by decide)) all.parameters))
  unfold Parts.join
  dsimp only
  generalize (if parts.parameters.isEmpty then parts.path
    else parts.path ++ ';' :: parts.parameters) =
    whole at path
  -- the parts are put in front of the path and behind it one after the other
  have placed : ∀ {slashes : Bool}, Keeps keep (if slashes then
      '/' :: '/' :: parts.authority ++
        (if whole.isEmpty || whole.head? = some '/' then whole else '/' :: whole)
      else whole) := by
    refine .ite (.cons slash (.cons slash (all.authority.append (.ite path (.cons slash path)))))
      path
  have schemed : ∀ {path : List Char}, Keeps keep path →
      Keeps keep (if parts.scheme.isEmpty then path else parts.scheme ++ ':' :: path) :=
    fun path => .ite path (all.scheme.append (.cons (lasting.marks _ (by decide)) path))
  have queried : ∀ {path : List Char}, Keeps keep path →
      Keeps keep (if parts.query.isEmpty then path else path ++ '?' :: parts.query) :=
    fun path => .ite path (path.append (.cons (lasting.marks _ (by decide)) all.query))
  have ended : ∀ {path : List Char}, Keeps keep path →
      Keeps keep (if parts.fragment.isEmpty then path else path ++ '#' :: parts.fragment) :=
    fun path => .ite path (path.append (.cons (lasting.marks _ (by decide)) all.fragment))
  exact ended (queried (schemed placed))

/-- Removing dot segments only ever drops segments, and changes none. -/
theorem mem_removeDots {segments done : List (List Char)} {segment : List Char}
    (member : segment ∈ removeDots done segments) : segment ∈ done ∨ segment ∈ segments := by
  fun_induction removeDots done segments with
  | case1 done => exact .inl (List.mem_reverse.mp member)
  | case2 done rest ih =>
    rcases ih member with before | after
    · exact .inl (List.mem_of_mem_drop before)
    · exact .inr (List.mem_cons_of_mem _ after)
  | case3 done rest other ih =>
    rcases ih member with before | after
    · exact .inl before
    · exact .inr (List.mem_cons_of_mem _ after)
  | case4 done first rest other single ih =>
    rcases ih member with before | after
    · rcases List.mem_cons.mp before with rfl | before
      · exact .inr (.head _)
      · exact .inl before
    · exact .inr (List.mem_cons_of_mem _ after)

theorem mem_dropInnerEmpty {segments : List (List Char)} {segment : List Char}
    (member : segment ∈ dropInnerEmpty segments) : segment ∈ segments := by
  unfold dropInnerEmpty at member
  split at member
  · exact member
  · next first rest =>
    split at member
    · rw [List.mem_singleton.mp member]
      exact .head _
    · next last there =>
      rcases List.mem_append.mp member with front | back
      · rcases List.mem_cons.mp front with rfl | inner
        · exact .head _
        · exact List.mem_cons_of_mem _ (List.dropLast_subset _ (List.mem_filter.mp inner).1)
      · rw [List.mem_singleton.mp back]
        exact List.mem_cons_of_mem _ (List.mem_of_getLast? there)

/-- A path that is joined to a base has segments of both, with slashes between them. -/
theorem joinPaths_keeps (lasting : Lasting keep) {base path : List Char} (kept : Keeps keep base)
    (all : Keeps keep path) : Keeps keep (joinPaths base path) := by
  have slash : keep '/' := lasting.marks _ (by decide)
  have basePieces : ∀ piece ∈ Text.splitAt '/' base, Keeps keep piece :=
    fun piece member c inside => kept c (Text.mem_of_mem_splitAt member inside)
  have pieces : ∀ piece ∈ Text.splitAt '/' path, Keeps keep piece :=
    fun piece member c inside => all c (Text.mem_of_mem_splitAt member inside)
  have directory : ∀ piece ∈ (if (Text.splitAt '/' base).getLast? = some []
      then Text.splitAt '/' base else (Text.splitAt '/' base).dropLast), Keeps keep piece := by
    intro piece member
    split at member
    · exact basePieces piece member
    · exact basePieces piece (List.dropLast_subset _ member)
  unfold joinPaths
  dsimp only
  generalize (if (Text.splitAt '/' base).getLast? = some [] then Text.splitAt '/' base
    else (Text.splitAt '/' base).dropLast) = front at directory
  have segments : ∀ piece ∈ (if path.head? = some '/' then Text.splitAt '/' path
      else dropInnerEmpty (front ++ Text.splitAt '/' path)), Keeps keep piece := by
    intro piece member
    split at member
    · exact pieces piece member
    · exact List.forall_mem_append.mpr ⟨directory, pieces⟩ piece (mem_dropInnerEmpty member)
  generalize (if path.head? = some '/' then Text.splitAt '/' path
    else dropInnerEmpty (front ++ Text.splitAt '/' path)) = joined at segments
  have resolved : ∀ piece ∈ removeDots [] joined, Keeps keep piece := by
    intro piece member
    rcases mem_removeDots member with none | among
    · cases none
    · exact segments piece among
  refine .ite (.cons slash .nil) fun c member => ?_
  rcases Text.mem_joinWith member with rfl | ⟨piece, among, inside⟩
  · exact slash
  · split at among
    · split at among
      · exact List.forall_mem_append.mpr ⟨resolved, List.forall_mem_singleton.mpr .nil⟩ piece
          among c inside
      · exact resolved piece among c inside
    · exact resolved piece among c inside

/-- An IRI that is resolved has no characters but those of the base and the
reference, marks between parts and lower case letters. -/
theorem resolve_keeps (lasting : Lasting keep) {base reference resolved : List Char}
    (kept : Keeps keep base) (all : Keeps keep reference)
    (done : resolve base reference = .ok resolved) : Keeps keep resolved := by
  unfold resolve at done
  split at done
  · cases done
    exact all
  split at done
  · cases done
    exact kept
  obtain ⟨b, cutBase, done⟩ := checked_bind_ok done
  obtain ⟨r, cut, done⟩ := checked_bind_ok done
  have baseParts := split_keeps lasting .nil kept cutBase
  have parts := split_keeps lasting baseParts.scheme all cut
  split at done
  · cases done
    exact all
  split at done
  · cases done
    exact join_keeps lasting parts
  have hosted : (if hasAuthority r.scheme then { r with authority := b.authority }
      else r).Keeps keep := by
    split
    · exact { parts with authority := baseParts.authority }
    · exact parts
  dsimp only at done
  generalize (if hasAuthority r.scheme then { r with authority := b.authority } else r) =
    whole at done hosted
  split at done
  · cases done
    refine join_keeps lasting
      { hosted with path := baseParts.path, parameters := baseParts.parameters, query := ?_ }
    exact .ite baseParts.query hosted.query
  · cases done
    exact join_keeps lasting
      { hosted with path := joinPaths_keeps lasting baseParts.path hosted.path }

end

end Iri

end ShapeQuery
