import AssetPlan.Output.Placement
import AssetPlan.Proofs.Path.Parts

/-! # Templates that name files below a directory

A template names a file for each asset, and joined to a directory that file may leave it. What
matters about the asset is the shape of its name and of its extension and whether it has a query;
files come in seven pairs of shapes, so fourteen sample assets tell whether a template is safe for
all assets.
-/

namespace AssetPlan

open AssetPlan.Path (Shape Walk)

/-- What a walk along the file name can tell about an asset. -/
structure AssetNames.Outline where
  name : Shape
  ext : Shape
  hasQuery : Bool
deriving DecidableEq, Repr

namespace AssetNames

def outline (names : AssetNames) : Outline :=
  ⟨.of names.name, .of names.ext, !names.query.isEmpty⟩

/-- How a walk gets past the text in a placeholder's place. -/
def Outline.past (o : Outline) : Placeholder → Walk → Walk
  | .name => Walk.past o.name
  | .ext => Walk.past o.ext
  | .query => if o.hasQuery then Walk.along ['?'] else id
  | .hash digits => Walk.past (if digits = 0 then .empty else .name)

end AssetNames

namespace Content

def hexDigits : List Char := "0123456789abcdef".toList

/-- Lower-case hexadecimal digits, at least one. -/
def IsHex (digits : List Char) : Prop :=
  digits ≠ [] ∧ ∀ c ∈ digits, c ∈ hexDigits

theorem digitChar_mem_hexDigits {n : Nat} (small : n < 16) : Nat.digitChar n ∈ hexDigits := by
  have all : ∀ n : Fin 16, Nat.digitChar n ∈ hexDigits := by decide
  exact all ⟨n, small⟩

theorem plain_of_mem_hexDigits {c : Char} (member : c ∈ hexDigits) :
    c.utf8Size = 1 ∧ c ≠ '.' ∧ c ≠ '/' ∧ c ≠ '?' := by
  have all : hexDigits.all (fun c => decide (c.utf8Size = 1 ∧ c ≠ '.' ∧ c ≠ '/' ∧ c ≠ '?')) := by
    decide
  exact of_decide_eq_true (List.all_eq_true.mp all c member)

theorem isHex_hash (bytes : Bytes) : IsHex (hash bytes).toList := by
  rw [hash, String.toList_ofList]
  constructor
  · simp [Sha256.digest, Sha256.bigEndian, hexByte]
  · intro c member
    obtain ⟨b, _, inByte⟩ := List.mem_flatMap.mp member
    have small : b.toNat < 256 := b.toNat_lt
    simp only [hexByte, List.mem_cons, List.not_mem_nil, or_false] at inByte
    rcases inByte with rfl | rfl <;> exact digitChar_mem_hexDigits (by omega)

/-- Of a digest, each digit takes one byte. -/
theorem IsHex.takeBytes_eq_take {digits : List Char} (hex : IsHex digits) (n : Nat) :
    Text.takeBytes n digits = digits.take n :=
  Text.takeBytes_eq_take (fun c member => (plain_of_mem_hexDigits (hex.2 c member)).1) n

/-- A part of a digest has the shape of a name, unless it is empty. -/
theorem IsHex.along_takeBytes {digits : List Char} (hex : IsHex digits) (n : Nat) :
    Walk.along (Text.takeBytes n digits) = Walk.past (if n = 0 then .empty else .name) := by
  have known : ∀ c ∈ digits, _ := fun c member => plain_of_mem_hexDigits (hex.2 c member)
  rw [hex.takeBytes_eq_take,
    Walk.along_eq_past fun c member => (known c (List.mem_of_mem_take member)).2.2]
  cases n with
  | zero => rfl
  | succ n =>
    obtain ⟨c, rest, rfl⟩ := List.exists_cons_of_ne_nil hex.1
    rw [List.take_succ_cons, Shape.of_cons_of_ne (known c List.mem_cons_self).2.1, if_neg nofun]

end Content

namespace AssetNames

variable {hash : List Char}

theorem of_eq (source hash : List Char) :
    of source hash =
      { name := Path.stem (splitQuery source).1
        ext := Path.dottedExtension (splitQuery source).1
        query := (splitQuery source).2
        hash := hash } := rfl

/-- The file part of a path has no question mark. -/
theorem ne_of_mem_splitQuery {source : List Char} {c : Char} (member : c ∈ (splitQuery source).1) :
    c ≠ '?' := by
  simpa using List.all_eq_true.mp List.all_takeWhile c member

/-- A query starts with its question mark. -/
theorem splitQuery_snd (source : List Char) :
    (splitQuery source).2 = [] ∨ ∃ rest, (splitQuery source).2 = '?' :: rest := by
  have stopped := List.head?_dropWhile_not (· != '?') source
  rw [splitQuery]
  cases left : source.dropWhile (· != '?') with
  | nil => exact .inl rfl
  | cons c rest =>
    obtain rfl : c = '?' := by simpa [left] using stopped
    exact .inr ⟨rest, rfl⟩

/-- What stands in front of a path without a question mark belongs to its file. -/
theorem splitQuery_append {front : List Char} (free : '?' ∉ front) (cs : List Char) :
    splitQuery (front ++ cs) = (front ++ (splitQuery cs).1, (splitQuery cs).2) := by
  have plain : ∀ c ∈ front, (c != '?') = true := fun c member =>
    bne_iff_ne.mpr (ne_of_mem_of_not_mem member free)
  rw [splitQuery, List.takeWhile_append_of_pos plain, List.dropWhile_append_of_pos plain, splitQuery]

/-- Only the query of an asset brings in a separator or a question mark. -/
theorem ne_of_mem_substitute (hex : Content.IsHex hash) {source : List Char} {p : Placeholder}
    {c : Char} (member : c ∈ p.substitute (of source hash)) (notQuery : p ≠ .query) :
    c ≠ '/' ∧ c ≠ '?' := by
  cases p with
  | name =>
    obtain ⟨inFile, slash⟩ := Path.mem_of_mem_stem member
    exact ⟨slash, ne_of_mem_splitQuery inFile⟩
  | ext =>
    change c ∈ Path.dottedExtension (splitQuery source).1 at member
    rw [Path.dottedExtension] at member
    cases found : Path.extension? (splitQuery source).1 with
    | none => simp [found] at member
    | some extension =>
      rw [found, Option.map_some, Option.getD_some, List.mem_cons] at member
      rcases member with rfl | inside
      · decide
      · obtain ⟨inFile, slash⟩ := Path.mem_of_mem_extension? found inside
        exact ⟨slash, ne_of_mem_splitQuery inFile⟩
  | query => exact (notQuery rfl).elim
  | hash digits =>
    change c ∈ Text.takeBytes digits hash at member
    rw [hex.takeBytes_eq_take] at member
    have known := Content.plain_of_mem_hexDigits (hex.2 c (List.mem_of_mem_take member))
    exact known.2.2

/-- A walk past an asset's text depends on the outline of its names only. -/
theorem along_substitute (hex : Content.IsHex hash) (source : List Char) (p : Placeholder) :
    Walk.along (p.substitute (of source hash)) = (of source hash).outline.past p := by
  cases p with
  | name => exact Walk.along_eq_past fun c member => ne_of_mem_substitute hex member nofun
  | ext => exact Walk.along_eq_past fun c member => ne_of_mem_substitute hex member nofun
  | query =>
    rw [Placeholder.substitute, Outline.past, outline, of_eq]
    rcases splitQuery_snd source with empty | ⟨rest, started⟩
    · rw [empty]
      rfl
    · rw [started]
      exact Walk.along_question_mark rest []
  | hash digits => exact hex.along_takeBytes digits

/-- Paths of assets with all kinds of names, each without and with a query. -/
def samplePaths : List (List Char) :=
  Path.samples ++ Path.samples.map (· ++ ['?'])

theorem splitQuery_sample :
    ∀ file ∈ Path.samples, splitQuery file = (file, []) ∧
      splitQuery (file ++ ['?']) = (file, ['?']) := by decide

theorem normalChars_sample : ∀ sample ∈ samplePaths, Path.normalChars sample = sample := by decide

theorem outline_of (source hash : List Char) :
    (of source hash).outline =
      { name := (Path.shapes (splitQuery source).1).1
        ext := (Path.shapes (splitQuery source).1).2
        hasQuery := !(splitQuery source).2.isEmpty } := rfl

theorem outline_of_hash (source hash hash' : List Char) :
    (of source hash).outline = (of source hash').outline := rfl

/-- The sample assets have all outlines there are. -/
theorem exists_samplePath (source hash hash' : List Char) :
    ∃ sample ∈ samplePaths, (of sample hash').outline = (of source hash).outline := by
  obtain ⟨file, member, same⟩ := Path.exists_sample (splitQuery source).1
  obtain ⟨plain, asked⟩ := splitQuery_sample file member
  cases query : (splitQuery source).2 with
  | nil =>
    refine ⟨file, List.mem_append_left _ member, ?_⟩
    rw [outline_of, outline_of, plain, same, query]
  | cons c rest =>
    refine ⟨file ++ ['?'], List.mem_append_right _ (List.mem_map_of_mem member), ?_⟩
    rw [outline_of, outline_of, asked, same, query]
    rfl

end AssetNames

namespace Template

/-- The file that a template names for an asset, if it names one, stays at least `n` names below the
directory it is joined to. -/
def staysBelow (n : Nat) (t : Template) (names : AssetNames) : Bool :=
  match t.render names with
  | .error _ => true
  | .ok file => Path.staysBelow n (splitQuery file).1

/-- Names of one outline take a walk along the file name the same way. -/
theorem map_along_render {first second : AssetNames}
    (alike : ∀ p : Placeholder, Walk.along (p.substitute first) = Walk.along (p.substitute second))
    (t : Template) : (t.render first).map Walk.along = (t.render second).map Walk.along := by
  unfold render
  induction t.pieces with
  | nil => rfl
  | cons piece rest ih =>
    obtain ⟨literal, token⟩ := piece
    rw [renderPieces, renderPieces]
    cases Placeholder.ofToken? token with
    | none => rfl
    | some p =>
      have added : ∀ names : AssetNames,
          ((renderPieces names t.tail rest).map fun text =>
            literal ++ p.substitute names ++ text).map Walk.along =
          ((renderPieces names t.tail rest).map Walk.along).map fun walk =>
            walk ∘ Walk.along (p.substitute names) ∘ Walk.along literal := by
        intro names
        cases renderPieces names t.tail rest with
        | error _ => rfl
        | ok text =>
          rw [Except.map, Except.map, Walk.along_append, Walk.along_append]
          rfl
      exact (added first).trans (ih ▸ alike p ▸ (added second).symm)

theorem staysBelow_eq (n : Nat) (t : Template) (names : AssetNames) :
    t.staysBelow n names =
      match (t.render names).map Walk.along with
      | .error _ => true
      | .ok walk => (walk .start).depth?.any (n ≤ ·) := by
  rw [staysBelow]
  cases t.render names with
  | error _ => rfl
  | ok file => exact congrArg (Option.any (n ≤ ·)) (Walk.depth?_along_start file).symm

theorem staysBelow_congr {source source' hash hash' : List Char} (hex : Content.IsHex hash)
    (hex' : Content.IsHex hash')
    (same : (AssetNames.of source hash).outline = (AssetNames.of source' hash').outline)
    (n : Nat) (t : Template) :
    t.staysBelow n (.of source hash) = t.staysBelow n (.of source' hash') := by
  rw [staysBelow_eq, staysBelow_eq, map_along_render]
  intro p
  rw [AssetNames.along_substitute hex, AssetNames.along_substitute hex', same]

/-- The files that a template names for the sample assets stay at least `n` names below the
directory they are joined to. -/
def keepsBelow (n : Nat) (t : Template) : Bool :=
  AssetNames.samplePaths.all fun sample => t.staysBelow n (.of sample ['0'])

/-- The sample assets stand for all assets. -/
theorem keepsBelow_iff (n : Nat) (t : Template) :
    t.keepsBelow n = true ↔ ∀ path content,
      t.staysBelow n (.of (Path.normalChars path) (Content.hash content).toList) = true := by
  have zero : Content.IsHex ['0'] := ⟨nofun, List.forall_mem_singleton.mpr (by decide)⟩
  rw [keepsBelow, List.all_eq_true]
  constructor
  · intro sampled path content
    have hex := Content.isHex_hash content
    obtain ⟨sample, member, same⟩ := AssetNames.exists_samplePath (Path.normalChars path)
      (Content.hash content).toList ['0']
    exact staysBelow_congr zero hex same n t ▸ sampled sample member
  · intro always sample member
    have same := AssetNames.outline_of_hash sample ['0'] (Content.hash []).toList
    rw [staysBelow_congr zero (Content.isHex_hash []) same n t,
      ← AssetNames.normalChars_sample sample member]
    exact always sample []

end Template

end AssetPlan
