import DependencyLint.Json.Document
import DependencyLint.Json.Value
import Mathlib.Data.List.Forall2

/-!
# Reading JSON that was written

A JSON value is written mark by mark, word by word and string by string. Reading takes the text apart
in the same places, so it comes back to the value.

**Tokens** (`Spells`). A text spells a list of tokens if these tokens are read off its front, whatever
comes behind it. This is closed under putting texts one behind the other, so the text of a value
spells the tokens of the value once each of its parts does. Strings are the part with something to
prove: each character is written as itself, behind a backslash or by its number, and is read back
from that.

**Trees** (`Value.doc`). From the tokens of a value its tree is built, inside any array or object that
is still open.

Main result: `parse_of_tokens`. Every text with the tokens of a written value is read as the tree of
that value, with nothing behind it. Numbers are left out, since a digit behind a number would change
it (`Value.IsTextual`).
-/

namespace DependencyLint

namespace Reader

variable {τ α : Type} {step : τ → Reader τ α}

/-- What is read again and again is put behind what was seen before. -/
theorem eachOnto_eq {bound bound' : Nat} (seen : List α) {s : List τ} (h : s.length ≤ bound)
    (h' : s.length ≤ bound') :
    (eachOnto step bound seen s h).1 = seen.reverse ++ (eachOnto step bound' [] s h').1 := by
  induction hn : s.length using Nat.strongRecOn generalizing bound s seen with
  | ind n ih =>
    cases s with
    | nil => simp [eachOnto]
    | cons t s =>
      rw [eachOnto, eachOnto]
      cases hread : (step t).read s with
      | none => simp
      | some found =>
        obtain ⟨a, rest, hrest⟩ := found
        have hless : rest.length < n := by simp at hn; omega
        have hbound : rest.length ≤ bound' := by simp at h'; omega
        simp only
        rw [ih rest.length hless (a :: seen) _ hbound rfl, ih rest.length hless [a] _ hbound rfl]
        simp

end Reader

namespace Json

/-! ## Spelling tokens -/

/-- The tokens of a list of characters. -/
def scan (cs : List Char) : List Token :=
  (Reader.eachOnto token cs.length [] cs (Nat.le_refl _)).1.filterMap id

theorem tokens_eq_scan (text : String) : tokens text = scan text.toList := rfl

theorem scan_nil : scan [] = [] := by simp [scan, Reader.eachOnto]

theorem scan_cons {c : Char} {cs rest : List Char} {found : Option Token}
    {h : rest.length ≤ cs.length} (hread : (token c).read cs = some (found, ⟨rest, h⟩)) :
    scan (c :: cs) = found.toList ++ scan rest := by
  rw [scan, Reader.eachOnto, hread]
  simp only
  rw [Reader.eachOnto_eq [found] _ (Nat.le_refl rest.length), List.filterMap_append]
  cases found <;> rfl

/-- The tokens are read off the front of the text, whatever comes behind it. -/
def Spells (cs : List Char) (found : List Token) : Prop :=
  ∀ rest, scan (cs ++ rest) = found ++ scan rest

theorem Spells.append {cs ds : List Char} {found more : List Token} (h : Spells cs found)
    (h' : Spells ds more) : Spells (cs ++ ds) (found ++ more) := by
  intro rest
  rw [List.append_assoc, h, h', List.append_assoc]

theorem spells_nil : Spells [] [] := fun _ => rfl

/-- Parts with a separator between any two of them. -/
theorem Spells.intercalate {separator : List Char} {between : List Token}
    (hseparator : Spells separator between) {parts : List (List Char)} {found : List (List Token)}
    (h : List.Forall₂ Spells parts found) :
    Spells (separator.intercalate parts) (between.intercalate found) := by
  induction h with
  | nil => exact spells_nil
  | cons hpart hparts ih =>
    cases hparts with
    | nil => simpa using hpart
    | cons hnext hrest =>
      rw [List.intercalate_cons_cons, List.intercalate_cons_cons]
      exact (hpart.append hseparator).append ih

theorem spells_mark {c : Char} {found : Token} (h : token c = pure (some found)) :
    Spells [c] [found] := by
  intro rest
  have hread : (token c).read rest = some (some found, ⟨rest, Nat.le_refl _⟩) := by rw [h]; rfl
  exact scan_cons hread

theorem spells_null : Spells "null".toList [.null] := by
  intro rest
  have hread : (token 'n').read ("ull".toList ++ rest) =
      some (some .null, ⟨rest, Nat.le_add_right rest.length 3⟩) := rfl
  exact scan_cons hread

theorem spells_bool (value : Bool) : Spells (toString value).toList [.bool value] := by
  intro rest
  cases value with
  | true =>
    have hread : (token 't').read ("rue".toList ++ rest) =
        some (some (.bool true), ⟨rest, Nat.le_add_right rest.length 3⟩) := rfl
    exact scan_cons hread
  | false =>
    have hread : (token 'f').read ("alse".toList ++ rest) =
        some (some (.bool false), ⟨rest, Nat.le_add_right rest.length 4⟩) := rfl
    exact scan_cons hread

/-! ## Strings -/

/-- The part of a string that a character is read back from. -/
inductive Piece.StandsFor : Piece → Char → Prop
  | char (c : Char) : StandsFor (.char c) c
  | unit {c : Char} (h : c.toNat < 0x20) : StandsFor (.unit c.toNat) c

theorem characters_cons {piece : Piece} {c : Char} (h : piece.StandsFor c) (rest : List Piece) :
    characters (piece :: rest) = (characters rest).map (c :: ·) := by
  cases h with
  | char => rw [characters]
  | unit hc =>
    -- A number as small as this is no half of a pair.
    have htrailing : isTrailing c.toNat = false := by simp [isTrailing]; omega
    have hleading : isLeading c.toNat = false := by simp [isLeading]; omega
    cases rest with
    | nil => simp [characters, htrailing, hleading]
    | cons next rest => cases next <;> simp [characters, htrailing, hleading]

theorem skipPieces_cons {piece : Piece} {c : Char} (h : piece.StandsFor c) (rest : List Piece) :
    skipPieces (piece :: rest) = skipPieces rest := by
  cases h <;> rfl

/-- A control character is written with two digits behind two zeros. -/
theorem controlEscape_digits : ∀ n < 0x20,
    (Value.controlEscape (Char.ofNat n)).toList =
        ['\\', 'u', '0', '0', if n < 16 then '0' else '1', Nat.digitChar (n % 16)] ∧
      hexNumber? ['0', '0', if n < 16 then '0' else '1', Nat.digitChar (n % 16)] = some n := by
  decide +kernel

/-- A character is read back from what it is written as, and nothing of that ends the string. -/
theorem exists_piece (c : Char) :
    ∃ piece : Piece, piece.StandsFor c ∧
      (∀ rest, pieces ((Value.escapeChar c).toList ++ rest) = piece :: pieces rest) ∧
      ∀ rest, afterText ((Value.escapeChar c).toList ++ rest) = afterText rest := by
  unfold Value.escapeChar
  split
  iterate 7 exact ⟨_, .char _, fun _ => rfl, fun _ => rfl⟩
  next hquote hbackslash _ _ _ _ _ =>
    split_ifs with hc
    · have hlow : c.toNat < 0x20 := hc
      obtain ⟨htext, hnumber⟩ := controlEscape_digits c.toNat hlow
      rw [Char.ofNat_toNat] at htext
      refine ⟨_, .unit hlow, fun rest => ?_, fun rest => ?_⟩
      · simp only [htext, List.cons_append, List.nil_append]
        rw [pieces, hnumber]
      · rw [htext]
        split_ifs <;> simp [afterText]
    · have hself : c.toString.toList = [c] := by simp
      refine ⟨_, .char c, fun rest => ?_, fun rest => ?_⟩
      · rw [hself, List.singleton_append, pieces, if_neg hc] <;> simp_all
      · rw [hself, List.singleton_append, afterText] <;> simp_all

theorem text_read_escaped (cs rest : List Char) :
    let written := cs.flatMap (fun c => (Value.escapeChar c).toList) ++ '"' :: rest
    characters (pieces written) = .ok cs ∧ skipPieces (pieces written) = .ok () ∧
      afterText written = rest := by
  induction cs with
  | nil => exact ⟨rfl, rfl, rfl⟩
  | cons c cs ih =>
    obtain ⟨hcharacters, hskip, hafter⟩ := ih
    obtain ⟨piece, hstands, hpieces, hafterChar⟩ := exists_piece c
    simp only [List.flatMap_cons, List.append_assoc, hpieces, hafterChar]
    rw [characters_cons hstands, skipPieces_cons hstands, hcharacters]
    exact ⟨rfl, hskip, hafter⟩

theorem toList_quote (content : String) :
    (Value.quote content).toList =
      '"' :: (content.toList.flatMap (fun c => (Value.escapeChar c).toList) ++ ['"']) := by
  simp [Value.quote, String.toList_join, List.flatMap_map]

/-- What stands for a string that was written. -/
def writtenText (content : String) : Scanned String := ⟨.ok content, .ok ()⟩

theorem spells_quote (content : String) :
    Spells (Value.quote content).toList [.text (writtenText content)] := by
  intro rest
  rw [toList_quote, List.cons_append, List.append_assoc, List.singleton_append]
  generalize hwritten : content.toList.flatMap (fun c => (Value.escapeChar c).toList) ++ '"' :: rest =
    written
  obtain ⟨hcharacters, hskip, hafter⟩ := text_read_escaped content.toList rest
  rw [hwritten] at hcharacters hskip hafter
  have hread : (token '"').read written =
      some (some (.text (writtenText content)), ⟨afterText written, length_afterText_le written⟩) := by
    have htext : text.read written = some
        (.text ⟨(characters (pieces written)).map String.ofList, skipPieces (pieces written)⟩,
          ⟨afterText written, length_afterText_le written⟩) := rfl
    rw [hcharacters, hskip, Except.map, String.ofList_toList] at htext
    have hmap : (token '"').read written = (some <$> text : Reader Char (Option Token)).read written :=
      rfl
    rw [hmap]
    simp only [Functor.map, htext]
    rfl
  rw [scan_cons hread, hafter]
  rfl

/-! ## Values -/

/-- A value without numbers in it. -/
inductive Value.IsTextual : Value → Prop
  | null : IsTextual .null
  | bool (value : Bool) : IsTextual (.bool value)
  | text (content : String) : IsTextual (.text content)
  | array {items : List Value} (h : ∀ item ∈ items, IsTextual item) : IsTextual (.array items)
  | object {members : List (String × Value)} (h : ∀ member ∈ members, IsTextual member.2) :
    IsTextual (.object members)

namespace Value

mutual

/-- The tokens of a value without numbers. -/
def tokens : Value → List Token
  | .null => [.null]
  | .bool value => [.bool value]
  | .integer _ => []
  | .text content => [.text (writtenText content)]
  | .array items => [.beginArray] ++ [.comma].intercalate (itemTokens items) ++ [.endArray]
  | .object members => [.beginObject] ++ [.comma].intercalate (memberTokens members) ++ [.endObject]

def itemTokens : List Value → List (List Token)
  | [] => []
  | item :: items => tokens item :: itemTokens items

def memberTokens : List (String × Value) → List (List Token)
  | [] => []
  | (key, value) :: members =>
    ([.text (writtenText key)] ++ [.colon] ++ tokens value) :: memberTokens members

end

mutual

/-- The tree of a value without numbers. -/
def doc : Value → Doc
  | .null => .null
  | .bool value => .bool value
  | .integer _ => .missing
  | .text content => .text (writtenText content)
  | .array items => .array (itemDocs items) none
  | .object members => .object (memberDocs members) none

def itemDocs : List Value → List Doc
  | [] => []
  | item :: items => doc item :: itemDocs items

def memberDocs : List (String × Value) → List (Doc × Doc)
  | [] => []
  | (key, value) :: members => (.text (writtenText key), doc value) :: memberDocs members

end

theorem itemDocs_eq_map (items : List Value) : itemDocs items = items.map doc := by
  induction items with
  | nil => rfl
  | cons item items ih => rw [itemDocs, ih, List.map_cons]

theorem memberDocs_eq_map (members : List (String × Value)) :
    memberDocs members = members.map fun member => (.text (writtenText member.1), doc member.2) := by
  induction members with
  | nil => rfl
  | cons member members ih =>
    obtain ⟨key, value⟩ := member
    rw [memberDocs, ih, List.map_cons]

theorem spells_items {items : List Value}
    (h : ∀ item ∈ items, Spells (render item).toList (tokens item)) :
    List.Forall₂ Spells ((renderItems items).map String.toList) (itemTokens items) := by
  induction items with
  | nil => exact .nil
  | cons item items ih =>
    obtain ⟨hitem, hitems⟩ := List.forall_mem_cons.1 h
    exact .cons hitem (ih hitems)

theorem spells_members {members : List (String × Value)}
    (h : ∀ member ∈ members, Spells (render member.2).toList (tokens member.2)) :
    List.Forall₂ Spells ((renderMembers members).map String.toList) (memberTokens members) := by
  induction members with
  | nil => exact .nil
  | cons member members ih =>
    obtain ⟨key, value⟩ := member
    obtain ⟨hvalue, hmembers⟩ := List.forall_mem_cons.1 h
    refine .cons ?_ (ih hmembers)
    rw [String.toList_append, String.toList_append]
    exact ((spells_quote key).append (spells_mark rfl)).append hvalue

/-- The text of a value spells the tokens of the value. -/
theorem IsTextual.spells {value : Value} (h : value.IsTextual) :
    Spells value.render.toList value.tokens := by
  induction h with
  | null => exact spells_null
  | bool value => exact spells_bool value
  | text content => exact spells_quote content
  | array _ ih =>
    rw [render, String.toList_append, String.toList_append, String.toList_intercalate]
    exact ((spells_mark rfl).append ((spells_mark rfl).intercalate (spells_items ih))).append
      (spells_mark rfl)
  | object _ ih =>
    rw [render, String.toList_append, String.toList_append, String.toList_intercalate]
    exact ((spells_mark rfl).append ((spells_mark rfl).intercalate (spells_members ih))).append
      (spells_mark rfl)

theorem IsTextual.tokens_render {value : Value} (h : value.IsTextual) :
    Json.tokens value.render = value.tokens := by
  have hspells := h.spells []
  rw [List.append_nil, scan_nil, List.append_nil] at hspells
  rw [tokens_eq_scan, hspells]

/-! ## Trees -/

/-- From the tokens of the value its tree is built, wherever a value is due. -/
def Builds (value : Value) : Prop :=
  ∀ orEnd frames rest,
    build (.value orEnd) frames (value.tokens ++ rest) = build (.separator value.doc) frames rest

section Steps

variable (value key : Doc) (items : List Doc) (members : List (Doc × Doc)) (frames : List Frame)
  (rest : List Token)

theorem build_comma_in_array :
    build (.separator value) (.array items :: frames) (.comma :: rest) =
      build (.value false) (.array (value :: items) :: frames) rest := rfl

theorem build_end_of_array :
    build (.separator value) (.array items :: frames) (.endArray :: rest) =
      build (.separator (.array (value :: items).reverse none)) frames rest := rfl

theorem build_key (orEnd : Bool) (name : Scanned String) :
    build (.key members orEnd) frames (.text name :: .colon :: rest) =
      build (.value false) (.object members (.text name) :: frames) rest := rfl

theorem build_comma_in_object :
    build (.separator value) (.object members key :: frames) (.comma :: rest) =
      build (.key ((key, value) :: members) false) frames rest := rfl

theorem build_end_of_object :
    build (.separator value) (.object members key :: frames) (.endObject :: rest) =
      build (.separator (.object ((key, value) :: members).reverse none)) frames rest := rfl

end Steps

/-- The items of an array that holds the items `done` already, the last first. -/
theorem build_items {item : Value} {items : List Value} (hitem : item.Builds)
    (hitems : ∀ item ∈ items, item.Builds) (orEnd : Bool) (done : List Doc) (frames : List Frame)
    (rest : List Token) :
    build (.value orEnd) (.array done :: frames)
        ([.comma].intercalate (itemTokens (item :: items)) ++ .endArray :: rest) =
      build (.separator (.array (done.reverse ++ itemDocs (item :: items)) none)) frames rest := by
  induction items generalizing item orEnd done with
  | nil =>
    simp only [itemTokens, itemDocs, List.intercalate_singleton]
    rw [hitem, build_end_of_array, List.reverse_cons]
  | cons next items ih =>
    obtain ⟨hnext, hitems⟩ := List.forall_mem_cons.1 hitems
    have hrest := ih hnext hitems false (item.doc :: done)
    simp only [itemTokens, itemDocs, List.intercalate_cons_cons, List.append_assoc,
      List.cons_append, List.nil_append, List.reverse_cons] at hrest ⊢
    rw [hitem, build_comma_in_array, hrest]

/-- The members of an object that holds the members `done` already, the last first. -/
theorem build_members {member : String × Value} {members : List (String × Value)}
    (hmember : member.2.Builds) (hmembers : ∀ member ∈ members, member.2.Builds) (orEnd : Bool)
    (done : List (Doc × Doc)) (frames : List Frame) (rest : List Token) :
    build (.key done orEnd) frames
        ([.comma].intercalate (memberTokens (member :: members)) ++ .endObject :: rest) =
      build (.separator (.object (done.reverse ++ memberDocs (member :: members)) none)) frames
        rest := by
  induction members generalizing member orEnd done with
  | nil =>
    simp only [memberTokens, memberDocs, List.intercalate_singleton, List.cons_append,
      List.nil_append]
    rw [build_key, hmember, build_end_of_object, List.reverse_cons]
  | cons next members ih =>
    obtain ⟨hnext, hmembers⟩ := List.forall_mem_cons.1 hmembers
    have hrest := ih hnext hmembers false ((.text (writtenText member.1), member.2.doc) :: done)
    simp only [memberTokens, memberDocs, List.intercalate_cons_cons, List.append_assoc,
      List.cons_append, List.nil_append, List.reverse_cons] at hrest ⊢
    rw [build_key, hmember, build_comma_in_object, hrest]

theorem IsTextual.builds {value : Value} (h : value.IsTextual) : value.Builds := by
  induction h with
  | null => intro orEnd frames rest; rfl
  | bool value => intro orEnd frames rest; rfl
  | text content => intro orEnd frames rest; rfl
  | @array items _ ih =>
    intro orEnd frames rest
    cases items with
    | nil => rfl
    | cons item items =>
      obtain ⟨hitem, hitems⟩ := List.forall_mem_cons.1 ih
      have hbuild := build_items hitem hitems true [] frames rest
      simpa [tokens, doc, build] using hbuild
  | @object members _ ih =>
    intro orEnd frames rest
    cases members with
    | nil => rfl
    | cons member members =>
      obtain ⟨hmember, hmembers⟩ := List.forall_mem_cons.1 ih
      have hbuild := build_members hmember hmembers true [] frames rest
      simpa [tokens, doc, build] using hbuild

/-- **A text with the tokens of a written value is read as that value,** and nothing follows it. -/
theorem IsTextual.parse_of_tokens {value : Value} (h : value.IsTextual) {text : String}
    (htext : Json.tokens text = Json.tokens value.render) :
    Json.parse text = ⟨value.doc, false⟩ := by
  have hbuild := h.builds false [] []
  rw [List.append_nil] at hbuild
  rw [Json.parse, htext, h.tokens_render, hbuild]
  rfl

end Value

end Json

end DependencyLint
