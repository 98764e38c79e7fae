import AssetPlan.Proofs.Output.Digits
import AssetPlan.Proofs.Output.Refusal

/-! # Templates as they are read

Every template text has one reading: tokens in brackets with literal text around them, and at the
end perhaps a bracket that is not closed. A file is named by putting a text in the place of each
token and keeping all else as it stands, so brackets in a substituted text are never looked at. A
token that stands for nothing is reported, the leftmost of them, whatever the asset.
-/

namespace AssetPlan

open Text

/-- The text that takes the place of a placeholder; of a digest as many digits as the token asks
for, or all that there are. -/
def Placeholder.shown (names : AssetNames) : Placeholder → List Char
  | .name => names.name
  | .ext => names.ext
  | .query => names.query
  | .hash digits => names.hash.take (min digits names.hash.length)

namespace Template

/-- A template as it is read from left to right: tokens, each with the literal text before its
bracket, the literal text behind them, and what stands from a bracket on that is not closed. -/
@[ext]
structure Reading where
  pieces : List (List Char × List Char)
  last : List Char
  unclosed : List Char
  literals : ∀ piece ∈ pieces, '[' ∉ piece.1
  tokens : ∀ piece ∈ pieces, ']' ∉ piece.2
  lastLiteral : '[' ∉ last
  opened : unclosed = [] ∨ unclosed.head? = some '[' ∧ ']' ∉ unclosed

/-- The text is made of the pieces, with what a token stands for in its place. -/
inductive Fills (names : AssetNames) : List (List Char × List Char) → List Char → Prop
  | nil : Fills names [] []
  | cons {token text : List Char} {p : Placeholder} {rest : List (List Char × List Char)}
    (spells : Placeholder.Spells token p) (later : Fills names rest text) (literal : List Char) :
    Fills names ((literal, token) :: rest) (literal ++ p.shown names ++ text)

variable {names : AssetNames} {pieces : List (List Char × List Char)}
  {literal token last unclosed tail file : List Char}

theorem parse_piece (literalFree : '[' ∉ literal) (tokenFree : ']' ∉ token) (rest : List Char) :
    parse (literal ++ '[' :: (token ++ ']' :: rest)) =
      ⟨(literal, token) :: (parse rest).pieces, (parse rest).tail⟩ := by
  have opened := splitOnce_of_not_mem literalFree (token ++ ']' :: rest)
  have closed := splitOnce_of_not_mem tokenFree rest
  rw [parse]
  split
  next missing => cases opened.symm.trans missing
  next before after found =>
    cases opened.symm.trans found
    split
    next missing => cases closed.symm.trans missing
    next inside behind found =>
      cases closed.symm.trans found
      rfl

/-- Without a bracket that is closed, a text is all tail. -/
theorem parse_tail (lastFree : '[' ∉ last)
    (opened : unclosed = [] ∨ unclosed.head? = some '[' ∧ ']' ∉ unclosed) :
    parse (last ++ unclosed) = ⟨[], last ++ unclosed⟩ := by
  rw [parse]
  split
  next => rfl
  next before after found =>
    split
    next => rfl
    next inside behind closed =>
      exfalso
      have whole := splitOnce_append found
      have bracket : ']' ∈ after := by
        rw [← splitOnce_append closed]
        simp
      rcases opened with rfl | ⟨head, free⟩
      · rw [List.append_nil] at whole
        exact lastFree (whole ▸ List.mem_append_right _ List.mem_cons_self)
      · obtain ⟨rest, rfl⟩ := List.head?_eq_some_iff.mp head
        have divided := splitOnce_of_not_mem lastFree rest
        cases divided.symm.trans found
        exact free (List.mem_cons_of_mem _ bracket)

namespace Reading

/-- The text that is read so. -/
def text (r : Reading) : List Char := r.pieces.flatMap pieceText ++ (r.last ++ r.unclosed)

theorem parse_text (r : Reading) : parse r.text = ⟨r.pieces, r.last ++ r.unclosed⟩ := by
  obtain ⟨pieces, last, unclosed, literals, tokens, lastLiteral, opened⟩ := r
  rw [text]
  induction pieces with
  | nil =>
    change parse (last ++ unclosed) = _
    exact parse_tail lastLiteral opened
  | cons piece rest ih =>
    obtain ⟨literalFree, literals⟩ := List.forall_mem_cons.mp literals
    obtain ⟨tokenFree, tokens⟩ := List.forall_mem_cons.mp tokens
    have later := ih literals tokens
    have front (behind : List Char) : pieceText piece ++ behind =
        piece.1 ++ '[' :: (piece.2 ++ ']' :: behind) := by simp [pieceText]
    rw [List.flatMap_cons, List.append_assoc, front, parse_piece literalFree tokenFree, later]

/-- The end of a text without closed brackets is divided where the first bracket stands. -/
theorem takeWhile_end (r : Reading) : (r.last ++ r.unclosed).takeWhile (· != '[') = r.last := by
  have plain : ∀ c ∈ r.last, (c != '[') = true := fun c member =>
    bne_iff_ne.mpr (ne_of_mem_of_not_mem member r.lastLiteral)
  rw [List.takeWhile_append_of_pos plain]
  rcases r.opened with empty | ⟨head, _⟩
  · rw [empty, List.takeWhile_nil, List.append_nil]
  · obtain ⟨rest, started⟩ := List.head?_eq_some_iff.mp head
    rw [started, List.takeWhile_cons_of_neg (by simp), List.append_nil]

theorem eq_of_text {r r' : Reading} (same : r.text = r'.text) : r = r' := by
  have parts := congrArg parse same
  rw [parse_text, parse_text, Template.mk.injEq] at parts
  obtain ⟨pieces, tail⟩ := parts
  have last : r.last = r'.last := by rw [← r.takeWhile_end, tail, r'.takeWhile_end]
  rw [last] at tail
  exact Reading.ext pieces last (List.append_cancel_left tail)

/-- One more piece in front. -/
def cons (r : Reading) (literalFree : '[' ∉ literal) (tokenFree : ']' ∉ token) : Reading :=
  { r with
    pieces := (literal, token) :: r.pieces
    literals := List.forall_mem_cons.mpr ⟨literalFree, r.literals⟩
    tokens := List.forall_mem_cons.mpr ⟨tokenFree, r.tokens⟩ }

theorem text_cons (r : Reading) (literalFree : '[' ∉ literal) (tokenFree : ']' ∉ token) :
    (r.cons literalFree tokenFree).text = literal ++ '[' :: (token ++ ']' :: r.text) := by
  simp [text, cons, pieceText]

/-- Every text can be read. -/
theorem exists_text_eq (cs : List Char) : ∃ r : Reading, r.text = cs := by
  fun_induction parse cs with
  | case1 cs unopened =>
    exact ⟨⟨[], cs, [], List.forall_mem_nil _, List.forall_mem_nil _,
      splitOnce_eq_none_iff.mp unopened, .inl rfl⟩, List.append_nil cs⟩
  | case2 cs literal after found unclosed =>
    have free : ']' ∉ '[' :: after := by
      rw [List.mem_cons, not_or]
      exact ⟨by decide, splitOnce_eq_none_iff.mp unclosed⟩
    exact ⟨⟨[], literal, '[' :: after, List.forall_mem_nil _, List.forall_mem_nil _,
      not_mem_of_splitOnce found, .inr ⟨rfl, free⟩⟩, splitOnce_append found⟩
  | case3 cs literal after found token rest closed t ih =>
    obtain ⟨r, later⟩ := ih
    have whole : literal ++ '[' :: (token ++ ']' :: rest) = cs := by
      rw [splitOnce_append closed, splitOnce_append found]
    refine ⟨r.cons (not_mem_of_splitOnce found) (not_mem_of_splitOnce closed), ?_⟩
    rw [text_cons, later, whole]

end Reading

theorem fills_cons_iff {text : List Char} : Fills names ((literal, token) :: pieces) text ↔
    ∃ p later, Placeholder.Spells token p ∧ Fills names pieces later ∧
      text = literal ++ p.shown names ++ later := by
  constructor
  · intro fills
    cases fills with
    | cons spells later literal => exact ⟨_, _, spells, later, rfl⟩
  · rintro ⟨p, later, spells, fills, rfl⟩
    exact .cons spells fills literal

theorem substitute_eq_shown (ascii : ∀ c ∈ names.hash, c.toNat < 128) (p : Placeholder) :
    p.substitute names = p.shown names := by
  cases p with
  | hash digits =>
    have oneByte : ∀ c ∈ names.hash, c.utf8Size = 1 := fun c member =>
      Char.utf8Size_eq_one_iff.mpr (Nat.lt_succ_iff.mp (ascii c member))
    change takeBytes digits names.hash = _
    rw [takeBytes_eq_take oneByte, Placeholder.shown, ← List.take_eq_take_min]
  | _ => rfl

theorem renderPieces_eq_ok_iff (ascii : ∀ c ∈ names.hash, c.toNat < 128) :
    renderPieces names tail pieces = .ok file ↔
      ∃ text, Fills names pieces text ∧ file = text ++ tail := by
  induction pieces generalizing file with
  | nil =>
    rw [renderPieces]
    constructor
    · rintro ⟨⟩
      exact ⟨[], .nil, rfl⟩
    · rintro ⟨text, fills, rfl⟩
      cases fills
      rfl
  | cons piece rest ih =>
    obtain ⟨literal, token⟩ := piece
    simp only [fills_cons_iff, ← Placeholder.ofToken?_eq_some_iff]
    rw [renderPieces]
    cases known : Placeholder.ofToken? token with
    | none =>
      constructor
      · intro failed
        cases failed
      · rintro ⟨_, ⟨p, _, spells, _⟩, _⟩
        cases spells
    | some p =>
      rw [Except.map_eq_ok_iff, substitute_eq_shown ascii]
      constructor
      · rintro ⟨below, rendered, rfl⟩
        obtain ⟨later, fills, rfl⟩ := ih.mp rendered
        exact ⟨_, ⟨p, later, rfl, fills, rfl⟩, (List.append_assoc _ _ _).symm⟩
      · rintro ⟨_, ⟨_, later, ⟨⟩, fills, rfl⟩, rfl⟩
        exact ⟨later ++ tail, ih.mpr ⟨later, fills, rfl⟩, (List.append_assoc _ _ _).symm⟩

namespace Reading

variable (r : Reading)

/-- The leftmost token that stands for nothing. -/
def FirstUnknown (token : List Char) : Prop :=
  ∃ before literal after, r.pieces = before ++ (literal, token) :: after ∧
    (∀ piece ∈ before, ∃ p, Placeholder.Spells piece.2 p) ∧ ¬ ∃ p, Placeholder.Spells token p

theorem isNone_ofToken?_iff {token : List Char} :
    (Placeholder.ofToken? token).isNone = true ↔ ¬ ∃ p, Placeholder.Spells token p := by
  simp only [Option.isNone_iff_eq_none, Option.eq_none_iff_forall_ne_some, ne_eq, not_exists,
    Placeholder.ofToken?_eq_some_iff]

theorem unknown?_eq_some_iff {token : List Char} :
    (parse r.text).unknown? = some token ↔ r.FirstUnknown token := by
  have known (token : List Char) : (!(Placeholder.ofToken? token).isNone) = true ↔
      ∃ p, Placeholder.Spells token p := by
    rw [Bool.not_eq_true', ← Bool.not_eq_true, isNone_ofToken?_iff, not_not]
  rw [parse_text, unknown?, List.find?_eq_some_iff_append, isNone_ofToken?_iff]
  simp only [known]
  constructor
  · rintro ⟨unknown, _, _, divided, earlier⟩
    obtain ⟨before, rest, same, rfl, later⟩ := List.map_eq_append_iff.mp divided
    obtain ⟨⟨literal, _⟩, after, rfl, rfl, _⟩ := List.map_eq_cons_iff.mp later
    exact ⟨before, literal, after, same,
      fun piece member => earlier _ (List.mem_map_of_mem member), unknown⟩
  · rintro ⟨before, literal, after, same, earlier, unknown⟩
    refine ⟨unknown, before.map Prod.snd, after.map Prod.snd, ?_, List.forall_mem_map.mpr earlier⟩
    rw [same, List.map_append, List.map_cons]

theorem render_eq_error_iff {token : List Char} :
    (parse r.text).render names = .error token ↔ r.FirstUnknown token :=
  Template.render_eq_error_iff.trans r.unknown?_eq_some_iff

theorem exists_render_iff : (∃ file, (parse r.text).render names = .ok file) ↔
    ∀ piece ∈ r.pieces, ∃ p, Placeholder.Spells piece.2 p := by
  rw [Template.exists_render_iff, parse_text, unknown?, List.find?_eq_none, List.forall_mem_map]
  simp only [isNone_ofToken?_iff, not_not]

theorem render_eq_ok_iff (ascii : ∀ c ∈ names.hash, c.toNat < 128) :
    (parse r.text).render names = .ok file ↔
      ∃ text, Fills names r.pieces text ∧ file = text ++ r.last ++ r.unclosed := by
  rw [parse_text, render, renderPieces_eq_ok_iff ascii]
  simp only [List.append_assoc]

end Reading

/-- Every template has exactly one reading. By its reading, a template names a file for an asset
exactly if each of its tokens stands for something, and then the file's name is the template's text
with that in the place of each token; else the leftmost token that stands for nothing is reported
with the whole template. So whether a file is named does not depend on the asset. -/
theorem render_by_reading :
    (∀ template : List Char, ∃! r : Reading, r.text = template) ∧
    ∀ r : Reading,
      (∀ names : AssetNames, (∀ c ∈ names.hash, c.toNat < 128) →
        ((∃ file, (parse r.text).render names = .ok file) ↔
          ∀ piece ∈ r.pieces, ∃ p, Placeholder.Spells piece.2 p) ∧
        ∀ file, (parse r.text).render names = .ok file ↔
          ∃ text, Fills names r.pieces text ∧ file = text ++ r.last ++ r.unclosed) ∧
      (∀ names token, (parse r.text).render names = .error token ↔ r.FirstUnknown token) ∧
      ∀ digest source content output inlineFallback failure,
        emit digest source content (.ofList r.text) output inlineFallback = .error failure ↔
          ∃ token, r.FirstUnknown token ∧
            failure = .unknownPlaceholder (.ofList r.text) (.ofList token) := by
  constructor
  · intro template
    obtain ⟨r, same⟩ := Reading.exists_text_eq template
    exact ⟨r, same, fun other same' => Reading.eq_of_text (same'.trans same.symm)⟩
  · intro r
    refine ⟨fun names ascii => ⟨r.exists_render_iff, fun file => r.render_eq_ok_iff ascii⟩,
      fun names token => r.render_eq_error_iff, ?_⟩
    intro digest source content output inlineFallback failure
    rw [emit_eq_error_iff, String.toList_ofList]
    simp only [r.unknown?_eq_some_iff]

/-- A bracket that stands alone, one that is not closed and one that an asset brings in are kept,
and a number may have a sign and leading zeros. -/
theorem render_by_reading_brackets :
    let names : AssetNames :=
      { name := "[ext]".toList, ext := ".png".toList, query := [], hash := "0123456789".toList }
    (∀ c ∈ names.hash, c.toNat < 128) ∧
      (parse "a]b[name]-[hash:+04][oops".toList).render names = .ok "a]b[ext]-0123[oops".toList := by
  intro names
  have ascii : ∀ c ∈ names.hash, c.toNat < 128 := by simp [names]
  let r : Reading :=
    { pieces := [("a]b".toList, "name".toList), ("-".toList, "hash:+04".toList)]
      last := []
      unclosed := "[oops".toList
      literals := by decide
      tokens := by decide
      lastLiteral := by decide
      opened := by decide }
  have number : Placeholder.SpellsNumber "+04".toList 4 :=
    ⟨"04".toList, .inr rfl, by decide, by simp, by decide, by decide⟩
  have digits : Placeholder.Spells ("hash".toList ++ ':' :: "+04".toList) (.hash 4) :=
    .digits (.inl rfl) number
  have filled : Fills names r.pieces "a]b[ext]-0123".toList :=
    .cons .name (.cons digits .nil "-".toList) "a]b".toList
  exact ⟨ascii, ((render_by_reading.2 r).1 names ascii).2 _ |>.mpr ⟨_, filled, by decide⟩⟩

end Template

end AssetPlan
