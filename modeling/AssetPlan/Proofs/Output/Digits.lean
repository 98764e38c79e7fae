import AssetPlan.Proofs.Except
import AssetPlan.Proofs.Output.Template
import AssetPlan.Proofs.Output.Token
import AssetPlan.Proofs.Path.Apart

/-! # Templates that show the digest

A file is told apart by its content only if digits of the digest stand in its name, and before the
query, which is cut off. A template shows the digest if this is so for it: then contents whose
digests differ in the first digit get files that are apart, and else all contents get the same file.
The warning about templates without a digest looks for the start of such a token instead, so it
passes over all templates that show the digest, and over some that do not.
-/

namespace AssetPlan

open AssetPlan.Path (Apart)
open Text

namespace Template

/-- A token in its brackets with the literal text before it. -/
def pieceText (piece : List Char × List Char) : List Char := piece.1 ++ '[' :: (piece.2 ++ [']'])

/-- The text that a template was taken apart from. -/
def text (t : Template) : List Char := t.pieces.flatMap pieceText ++ t.tail

theorem text_parse (cs : List Char) : (parse cs).text = cs := by
  fun_induction parse cs with
  | case1 cs opened => rfl
  | case2 cs literal after opened closed => rfl
  | case3 cs literal after opened token rest closed t ih =>
    have whole : literal ++ '[' :: (token ++ ']' :: rest) = cs := by
      rw [splitOnce_append closed, splitOnce_append opened]
    have later : t.pieces.flatMap pieceText ++ t.tail = rest := ih
    rw [← whole, ← later]
    simp [text, pieceText]

/-- A token stands in the text behind its bracket. -/
theorem infix_of_mem_pieces {cs literal token : List Char}
    (member : (literal, token) ∈ (parse cs).pieces) : '[' :: token <:+: cs := by
  obtain ⟨before, after, divided⟩ := List.append_of_mem member
  have whole := text_parse cs
  rw [text, divided] at whole
  refine ⟨before.flatMap pieceText ++ literal,
    ']' :: (after.flatMap pieceText ++ (parse cs).tail), Eq.trans ?_ whole⟩
  simp [pieceText]

end Template

namespace Placeholder

/-- Some digits of the digest take the place of the token. -/
def isDigest : Placeholder → Bool
  | .hash digits => digits != 0
  | _ => false

/-- The query takes the place of the token, if the asset has one. -/
def startsQuery (asked : Bool) : Placeholder → Bool
  | .query => asked
  | _ => false

/-- The token of a digest starts with one of its two names. -/
theorem front_of_hash {token : List Char} {digits : Nat}
    (known : ofToken? token = some (.hash digits)) :
    "hash".toList <+: token ∨ "contenthash".toList <+: token := by
  suffices front : ∃ key, IsDigestName key ∧ key <+: token by
    obtain ⟨key, rfl | rfl, front⟩ := front
    · exact .inl front
    · exact .inr front
  cases ofToken?_eq_some_iff.mp known with
  | digest named => exact ⟨token, named, List.prefix_rfl⟩
  | digits named spelled => exact ⟨_, named, List.prefix_append _ _⟩

end Placeholder

namespace Template

/-- The digits of the digest stand in the file name before any query; `asked` tells whether the
asset has one. -/
def piecesShow (asked : Bool) : List (List Char × List Char) → Bool
  | [] => false
  | (literal, token) :: rest =>
    !literal.contains '?' &&
      match Placeholder.ofToken? token with
      | none => false
      | some p => p.isDigest || (!p.startsQuery asked && piecesShow asked rest)

/-- A file that the template names for an asset shows the digest. -/
def showsDigest (asked : Bool) (t : Template) : Bool := piecesShow asked t.pieces

theorem mentionsHash_eq_true_iff {cs : List Char} :
    mentionsHash cs = true ↔ "[hash".toList <:+: cs ∨ "[contenthash".toList <:+: cs := by
  rw [mentionsHash, Bool.or_eq_true, occursIn_iff, occursIn_iff]

theorem mentionsHash_eq_false_iff {cs : List Char} :
    mentionsHash cs = false ↔ ¬ "[hash".toList <:+: cs ∧ ¬ "[contenthash".toList <:+: cs := by
  rw [← Bool.not_eq_true, mentionsHash_eq_true_iff, not_or]

/-- A template with a token that stands for the digest mentions it. -/
theorem mentionsHash_of_mem_pieces {cs literal token : List Char} {digits : Nat}
    (member : (literal, token) ∈ (parse cs).pieces)
    (known : Placeholder.ofToken? token = some (.hash digits)) : mentionsHash cs = true := by
  have inside := infix_of_mem_pieces member
  rw [mentionsHash_eq_true_iff]
  refine (Placeholder.front_of_hash known).imp (fun front => ?_) (fun front => ?_)
  · exact (List.IsPrefix.isInfix (List.prefix_cons_inj '[' |>.mpr front)).trans inside
  · exact (List.IsPrefix.isInfix (List.prefix_cons_inj '[' |>.mpr front)).trans inside

/-- A template that shows the digest mentions it, and is not warned about. -/
theorem mentionsHash_of_showsDigest {asked : Bool} {cs : List Char}
    (shows : (parse cs).showsDigest asked = true) : mentionsHash cs = true := by
  suffices token : ∀ pieces, piecesShow asked pieces = true →
      ∃ literal token digits, (literal, token) ∈ pieces ∧
        Placeholder.ofToken? token = some (.hash digits) by
    obtain ⟨literal, token, digits, member, known⟩ := token _ shows
    exact mentionsHash_of_mem_pieces member known
  intro pieces
  induction pieces with
  | nil => nofun
  | cons piece rest ih =>
    obtain ⟨literal, token⟩ := piece
    intro shows
    rw [piecesShow, Bool.and_eq_true] at shows
    obtain ⟨_, shows⟩ := shows
    split at shows
    next => cases shows
    next p known =>
      rcases Bool.or_eq_true_iff.mp shows with digest | later
      · cases p with
        | hash digits => exact ⟨literal, token, digits, List.mem_cons_self, known⟩
        | _ => cases digest
      · obtain ⟨literal', token', digits, member, known'⟩ := ih (Bool.and_eq_true_iff.mp later).2
        exact ⟨literal', token', digits, List.mem_cons_of_mem _ member, known'⟩

end Template

/-- Names that differ in the digest only are not told apart by pieces without it. -/
theorem Template.renderPieces_congr {source hash hash' tail : List Char}
    {pieces : List (List Char × List Char)}
    (silent : ∀ piece ∈ pieces, ∀ digits, Placeholder.ofToken? piece.2 ≠ some (.hash digits)) :
    renderPieces (.of source hash) tail pieces = renderPieces (.of source hash') tail pieces := by
  induction pieces with
  | nil => rfl
  | cons piece rest ih =>
    obtain ⟨literal, token⟩ := piece
    obtain ⟨first, later⟩ := List.forall_mem_cons.mp silent
    rw [renderPieces, renderPieces, ih later]
    cases known : Placeholder.ofToken? token with
    | none => rfl
    | some p =>
      cases p with
      | hash digits => exact (first digits known).elim
      | _ => rfl

/-- A template that does not mention the digest names a file without it. -/
theorem Template.render_congr {cs : List Char} (silent : mentionsHash cs = false)
    (source hash hash' : List Char) :
    (parse cs).render (.of source hash) = (parse cs).render (.of source hash') := by
  refine renderPieces_congr fun ⟨literal, token⟩ member digits known => ?_
  cases silent.symm.trans (mentionsHash_of_mem_pieces member known)

section TwoContents

variable {source hash hash' : List Char} {p : Placeholder}

theorem plain_of_mem_hexDigits {c : Char} (member : c ∈ Content.hexDigits) : Path.Plain c :=
  have ⟨_, dot, slash, _⟩ := Content.plain_of_mem_hexDigits member
  ⟨slash, dot⟩

/-- Digits that differ in the first are apart, however many of them are taken. -/
theorem apart_takeBytes (hex : Content.IsHex hash) (hex' : Content.IsHex hash')
    (differ : hash.head? ≠ hash'.head?) {n : Nat} (some : n ≠ 0) :
    Apart (takeBytes n hash) (takeBytes n hash') := by
  rw [hex.takeBytes_eq_take, hex'.takeBytes_eq_take]
  obtain ⟨n, rfl⟩ := Nat.exists_eq_succ_of_ne_zero some
  obtain ⟨c, rest, rfl⟩ := List.exists_cons_of_ne_nil hex.1
  obtain ⟨c', rest', rfl⟩ := List.exists_cons_of_ne_nil hex'.1
  rw [List.take_succ_cons, List.take_succ_cons]
  refine .here (by simpa using differ) ?_ ?_ _ _
  · exact plain_of_mem_hexDigits (hex.2 c List.mem_cons_self)
  · exact plain_of_mem_hexDigits (hex'.2 c' List.mem_cons_self)

namespace AssetNames

/-- The asset has a query. -/
def asks (source : List Char) : Bool := !(splitQuery source).2.isEmpty

variable (source) in
/-- A digest tells the contents apart. -/
theorem apart_substitute (hex : Content.IsHex hash) (hex' : Content.IsHex hash')
    (differ : hash.head? ≠ hash'.head?) (digest : p.isDigest = true) :
    Apart (p.substitute (of source hash)) (p.substitute (of source hash')) ∧
      p.startsQuery (asks source) = false := by
  cases p with
  | hash digits =>
    have some : digits ≠ 0 := by simpa [Placeholder.isDigest] using digest
    exact ⟨apart_takeBytes hex hex' differ some, rfl⟩
  | _ => cases digest

/-- Nothing else tells the contents apart. -/
theorem substitute_eq (other : p.isDigest = false) :
    p.substitute (of source hash) = p.substitute (of source hash') := by
  cases p with
  | hash digits =>
    obtain rfl : digits = 0 := by simpa [Placeholder.isDigest] using other
    rw [Placeholder.substitute, Placeholder.substitute, takeBytes_zero, takeBytes_zero]
  | _ => rfl

/-- Only a query brings in a question mark. -/
theorem question_mark_mem_substitute_iff (hex : Content.IsHex hash) :
    '?' ∈ p.substitute (of source hash) ↔ p.startsQuery (asks source) = true := by
  by_cases isQuery : p = .query
  · subst isQuery
    rw [Placeholder.substitute, of_eq, Placeholder.startsQuery, asks]
    rcases splitQuery_snd source with empty | ⟨rest, started⟩
    · simp [empty]
    · simp [started]
  · refine iff_of_false (fun member => (ne_of_mem_substitute hex member isQuery).2 rfl) ?_
    cases p with
    | query => exact (isQuery rfl).elim
    | _ => exact Bool.false_ne_true

end AssetNames

/-- The file of a text without a query in front stands behind it. -/
theorem splitQuery_append_of_not_mem {front : List Char} (free : '?' ∉ front) (cs : List Char) :
    (splitQuery (front ++ cs)).1 = front ++ (splitQuery cs).1 :=
  congrArg Prod.fst (AssetNames.splitQuery_append free cs)

/-- The file ends where a query starts. -/
theorem splitQuery_append_of_mem {front : List Char} (asked : '?' ∈ front) (cs : List Char) :
    (splitQuery (front ++ cs)).1 = (splitQuery front).1 := by
  obtain ⟨before, after, rfl, free⟩ := List.eq_append_cons_of_mem asked
  rw [List.append_assoc, splitQuery_append_of_not_mem free, splitQuery_append_of_not_mem free]
  rfl

/-- The names are those of files that are apart if the digest is shown, and of one file if not. -/
def Told (shown : Bool) (name name' : List Char) : Prop :=
  if shown then Apart (splitQuery name).1 (splitQuery name').1
  else (splitQuery name).1 = (splitQuery name').1

/-- What is told behind a piece is told behind it as well, unless the query starts in it, and a
piece with a digest tells by itself. -/
theorem Told.piece (hex : Content.IsHex hash) (hex' : Content.IsHex hash')
    (differ : hash.head? ≠ hash'.head?) {shown : Bool} {later later' : List Char}
    (told : Told shown later later') (literal : List Char) :
    Told (!literal.contains '?' &&
        (p.isDigest || (!p.startsQuery (AssetNames.asks source) && shown)))
      (literal ++ p.substitute (.of source hash) ++ later)
      (literal ++ p.substitute (.of source hash') ++ later') := by
  by_cases ended : '?' ∈ literal
  · -- the query has started in the literal text: nothing behind it counts
    rw [Told, if_neg (by simp [ended]), List.append_assoc, List.append_assoc,
      splitQuery_append_of_mem ended, splitQuery_append_of_mem ended]
  simp only [Told, List.append_assoc, splitQuery_append_of_not_mem ended]
  have asked : '?' ∈ p.substitute (.of source hash) ↔ _ :=
    AssetNames.question_mark_mem_substitute_iff hex
  have asked' : '?' ∈ p.substitute (.of source hash') ↔ _ :=
    AssetNames.question_mark_mem_substitute_iff hex'
  cases digest : p.isDigest with
  | true =>
    obtain ⟨apart, still⟩ := AssetNames.apart_substitute source hex hex' differ digest
    have free : '?' ∉ p.substitute (.of source hash) := by simp [asked, still]
    have free' : '?' ∉ p.substitute (.of source hash') := by simp [asked', still]
    rw [if_pos (by simp [ended]), splitQuery_append_of_not_mem free,
      splitQuery_append_of_not_mem free']
    exact (apart.append_right _ _).append_left literal
  | false =>
    have same : p.substitute (.of source hash') = p.substitute (.of source hash) :=
      AssetNames.substitute_eq digest
    rw [same]
    cases starts : p.startsQuery (AssetNames.asks source) with
    | true =>
      rw [if_neg (by simp), splitQuery_append_of_mem (asked.mpr starts),
        splitQuery_append_of_mem (asked.mpr starts)]
    | false =>
      have free : '?' ∉ p.substitute (.of source hash) := by simp [asked, starts]
      rw [splitQuery_append_of_not_mem free, splitQuery_append_of_not_mem free]
      cases shown with
      | true =>
        rw [if_pos (by simp [ended])]
        exact (Apart.append_left told _).append_left literal
      | false =>
        have equal : (splitQuery later).1 = (splitQuery later').1 := told
        rw [if_neg (by simp), equal]

/-- A template that shows the digest names files that are apart; another names the same file. -/
theorem Template.told_of_render (hex : Content.IsHex hash) (hex' : Content.IsHex hash')
    (differ : hash.head? ≠ hash'.head?) {t : Template} {name name' : List Char}
    (rendered : t.render (.of source hash) = .ok name)
    (rendered' : t.render (.of source hash') = .ok name') :
    Told (t.showsDigest (AssetNames.asks source)) name name' := by
  rw [render] at rendered rendered'
  rw [showsDigest]
  generalize t.pieces = pieces at rendered rendered' ⊢
  induction pieces generalizing name name' with
  | nil =>
    cases rendered
    cases rendered'
    exact rfl
  | cons piece rest ih =>
    obtain ⟨literal, token⟩ := piece
    rw [renderPieces] at rendered rendered'
    rw [piecesShow]
    cases known : Placeholder.ofToken? token with
    | none =>
      rw [known] at rendered
      cases rendered
    | some p =>
      rw [known] at rendered rendered'
      obtain ⟨later, below, rfl⟩ := Except.map_eq_ok_iff.mp rendered
      obtain ⟨later', below', rfl⟩ := Except.map_eq_ok_iff.mp rendered'
      exact (ih below below').piece hex hex' differ literal

end TwoContents

end AssetPlan
