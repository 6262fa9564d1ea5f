import NilFlow.Proofs.PayloadFormat
import NilFlow.Proofs.TriggerBasis

/-!
# Report texts are unambiguous

A report text can be taken apart again: what stands between backticks is a name, digits make up a
number, and the other characters are words (`Token.scan`).  This gives back the pieces that the text
was made of (`Payload.scan_text`), as long as no name has a backtick in it and no two numbers meet.

The kind cannot be read off from any one piece, since the texts of many kinds begin alike and some
kinds have two texts.  But with names and numbers taken away, each of these texts is a fixed
wording, and no two of them have the same one (`Payload.bare_eq_of_wording`).  Once the kind is
known, the pieces give the fields one after another.

Only what is shown can be read off.  The name of a result is shown if the result is returned through
it, so payloads with equal texts are the same up to such a name (`Payload.Alike`).
-/

namespace NilFlow

/-! ### Texts taken apart -/

/-- The backtick, which stands around names. -/
def backtick : Char := '\x60'

/-- A character that can neither begin a name nor belong to a number. -/
abbrev Plain (c : Char) : Prop :=
  c ≠ backtick ∧ c.isDigit = false

/-- What a text consists of. -/
inductive Token where
  | char (c : Char)
  /-- A name between backticks. -/
  | name (s : String)
  | number (n : Nat)

namespace Token

/-- Takes a text apart. -/
def scan : List Char → List Token
  | [] => []
  | c :: cs =>
    if c = backtick then
      .name (String.ofList (cs.takeWhile (· ≠ backtick))) :: scan (cs.dropWhile (· ≠ backtick)).tail
    else if c.isDigit then
      .number (Reader.ofDigits (Reader.digits (c :: cs)).1) :: scan (cs.dropWhile Char.isDigit)
    else .char c :: scan cs
termination_by cs => cs.length
decreasing_by
  · have hle := (List.dropWhile_sublist (l := cs) fun c => decide (c ≠ backtick)).length_le
    rw [List.length_tail, List.length_cons]
    omega
  · exact Nat.lt_succ_of_le (List.dropWhile_sublist _).length_le
  · exact Nat.lt_succ_self _

/-- Words as tokens. -/
def ofWords (s : String) : List Token :=
  s.toList.map .char

/-- How a token is shown. -/
def text : Token → String
  | .char c => c.toString
  | .name s => "`" ++ s ++ "`"
  | .number n => toString n

/-- The character of a word. -/
def char? : Token → Option Char
  | .char c => some c
  | .name _ | .number _ => none

/-- Names are read up to the next backtick. -/
lemma scan_name {s : String} (hs : backtick ∉ s.toList) (rest : List Char) :
    scan ((name s).text.toList ++ rest) = .name s :: scan rest := by
  have hall : ∀ c ∈ s.toList, decide (c ≠ backtick) = true := by
    intro c hc
    exact decide_eq_true fun heq => hs (heq ▸ hc)
  have htext : (name s).text.toList ++ rest = backtick :: (s.toList ++ backtick :: rest) := by
    rw [text, String.toList_append, String.toList_append, List.append_assoc, List.append_assoc]
    rfl
  rw [htext, scan, if_pos rfl, List.takeWhile_append_of_pos hall, List.dropWhile_append_of_pos hall]
  simp

/-- Numbers are read up to the next character that is no digit. -/
lemma scan_number (n : Nat) {rest : List Char} (hrest : ∀ c ∈ rest.head?, c.isDigit = false) :
    scan ((number n).text.toList ++ rest) = .number n :: scan rest := by
  obtain ⟨c, cs, hn, hc⟩ := Reader.exists_toDigits n
  have hdigits := Reader.digits_append (Reader.isDigit_toDigits n) hrest
  have hcs : ∀ d ∈ cs, d.isDigit = true := fun d hd =>
    Reader.isDigit_toDigits n d (hn ▸ List.mem_cons_of_mem c hd)
  have hdrop : (cs ++ rest).dropWhile Char.isDigit = rest :=
    congrArg Prod.snd (Reader.digits_append hcs hrest)
  have hname : c ≠ backtick := by
    rintro rfl
    cases hc
  have htext : (number n).text.toList = Nat.toDigits 10 n := by
    rw [text, Nat.toString_eq_ofList_toDigits, String.toList_ofList]
  rw [htext, hn, List.cons_append, scan, if_neg hname, if_pos hc, hdrop, ← List.cons_append, ← hn,
    hdigits, Reader.ofDigits_toDigits]

/-- Words are read as they are. -/
lemma scan_words {cs : List Char} (hcs : ∀ c ∈ cs, Plain c) (rest : List Char) :
    scan (cs ++ rest) = cs.map .char ++ scan rest := by
  induction cs with
  | nil => rfl
  | cons c cs ih =>
    obtain ⟨⟨hname, hdigit⟩, hcs⟩ := List.forall_mem_cons.mp hcs
    rw [List.cons_append, scan, if_neg hname, if_neg (Bool.eq_false_iff.mp hdigit), ih hcs]
    rfl

end Token

/-! ### Pieces that can be read -/

namespace Piece

/-- The words of a piece, those of a label included. -/
def wording : Piece → List String
  | .words s => [s]
  | .label _ => ["param "]
  | .name _ | .number _ => []

/-- The names in a piece have no backtick, and its label is that of a parameter. -/
def Clean : Piece → Prop
  | .name s => backtick ∉ s.toList
  | .label s => ∃ (slot : Slot) (index : Nat),
      backtick ∉ slot.name.toList ∧ s = slot.toldAsParam index
  | .words _ | .number _ => True

/-- A piece can be told from what stands around it: its names have no backtick, and its words
neither backticks nor digits. -/
def Readable (piece : Piece) : Prop :=
  piece.Clean ∧ ∀ s ∈ piece.wording, s.toList ≠ [] ∧ ∀ c ∈ s.toList, Plain c

/-- The tokens of a piece. -/
def tokens : Piece → List Token
  | .words s => Token.ofWords s
  | .name s => [.name s]
  | .label s => Token.scan s.toList
  | .number n => [.number n]

/-- The label of a parameter consists of a word and a name or a number. -/
lemma exists_label {s : String} (hs : (label s).Clean) :
    ∃ token : Token, token.char? = none ∧ s = "param " ++ token.text ∧
      ∀ rest : List Char, (∀ c ∈ rest.head?, c.isDigit = false) →
        Token.scan (token.text.toList ++ rest) = token :: Token.scan rest := by
  obtain ⟨slot, index, hname, rfl⟩ := hs
  rw [Slot.toldAsParam]
  split
  · exact ⟨.number index, rfl, rfl, fun rest hrest => Token.scan_number index hrest⟩
  · refine ⟨.name slot.name, rfl, ?_, fun rest _ => Token.scan_name hname rest⟩
    have hmark : "param `" = "param " ++ "`" := by decide
    rw [hmark, String.append_assoc, String.append_assoc, Token.text, String.append_assoc]

/-- The tokens of the label of a parameter, whatever follows it. -/
lemma exists_tokens_label {s : String} (hs : (label s).Readable) :
    ∃ token : Token, token.char? = none ∧ s = "param " ++ token.text ∧
      (label s).tokens = Token.ofWords "param " ++ [token] ∧
        ∀ rest : List Char, (∀ c ∈ rest.head?, c.isDigit = false) →
          Token.scan (s.toList ++ rest) = (label s).tokens ++ Token.scan rest := by
  obtain ⟨token, hchar, rfl, hscan⟩ := exists_label hs.1
  have hparam := (hs.2 "param " List.mem_cons_self).2
  have hall : ∀ rest : List Char, (∀ c ∈ rest.head?, c.isDigit = false) →
      Token.scan (("param " ++ token.text).toList ++ rest) =
        Token.ofWords "param " ++ token :: Token.scan rest := by
    intro rest hrest
    rw [String.toList_append, List.append_assoc, Token.scan_words hparam, hscan rest hrest]
    rfl
  have htokens : (label ("param " ++ token.text)).tokens = Token.ofWords "param " ++ [token] := by
    have hnil := hall [] nofun
    rwa [List.append_nil, Token.scan] at hnil
  refine ⟨token, hchar, rfl, htokens, fun rest hrest => ?_⟩
  rw [hall rest hrest, htokens, List.append_assoc, List.singleton_append]

/-- Labels are told by their tokens, whatever follows them. -/
lemma label_append_inj {s s' : String} {rest rest' : List Token} (hs : (label s).Readable)
    (hs' : (label s').Readable) (h : (label s).tokens ++ rest = (label s').tokens ++ rest') :
    s = s' ∧ rest = rest' := by
  obtain ⟨token, -, rfl, htokens, -⟩ := exists_tokens_label hs
  obtain ⟨token', -, rfl, htokens', -⟩ := exists_tokens_label hs'
  rw [htokens, htokens', List.append_assoc, List.append_assoc, List.append_cancel_left_eq] at h
  obtain ⟨rfl, rfl⟩ := List.cons.inj h
  exact ⟨rfl, rfl⟩

/-- Whether a piece consists of words. -/
def isWords : Piece → Bool
  | .words _ => true
  | .name _ | .label _ | .number _ => false

/-- Whether a piece is a number. -/
def isNumber : Piece → Bool
  | .number _ => true
  | .words _ | .name _ | .label _ => false

/-- There are words before each number. -/
def spaced : List Piece → Bool
  | p :: q :: ps => (!q.isNumber || p.isWords) && spaced (q :: ps)
  | _ => true

/-- A piece is read back, whatever follows it; but what follows a number must not begin with a
digit. -/
lemma scan_append {piece : Piece} (hpiece : piece.Readable) {rest : List Char}
    (hrest : piece.isWords = false → ∀ c ∈ rest.head?, c.isDigit = false) :
    Token.scan (piece.text.toList ++ rest) = piece.tokens ++ Token.scan rest := by
  cases piece with
  | words s => exact Token.scan_words (hpiece.2 s List.mem_cons_self).2 rest
  | name s => exact Token.scan_name hpiece.1 rest
  | label s =>
    obtain ⟨token, -, -, -, hscan⟩ := exists_tokens_label hpiece
    exact hscan rest (hrest rfl)
  | number n => exact Token.scan_number n (hrest rfl)

/-- Only numbers begin with a digit. -/
lemma head_text {piece : Piece} (hpiece : piece.Readable) (hnumber : piece.isNumber = false)
    (rest : List Char) : ∀ c ∈ (piece.text.toList ++ rest).head?, c.isDigit = false := by
  cases piece with
  | words s =>
    obtain ⟨hs, hwords⟩ := hpiece.2 s List.mem_cons_self
    obtain ⟨c, cs, hlist⟩ := List.exists_cons_of_ne_nil hs
    rw [text, hlist]
    rintro _ ⟨⟩
    exact (hwords c (hlist ▸ List.mem_cons_self)).2
  | name s =>
    rw [text, String.toList_append, String.toList_append, List.append_assoc, List.append_assoc]
    rintro _ ⟨⟩
    rfl
  | label s =>
    obtain ⟨token, -, rfl, -⟩ := exists_label hpiece.1
    rw [text, String.toList_append, List.append_assoc]
    rintro _ ⟨⟩
    rfl
  | number n => cases hnumber

/-- A text is taken apart into the tokens of its pieces. -/
lemma scan_pieces {ps : List Piece} (hps : ∀ p ∈ ps, p.Readable) (hspaced : spaced ps = true) :
    Token.scan (ps.flatMap fun p => p.text.toList) = ps.flatMap tokens := by
  induction ps with
  | nil => rw [List.flatMap_nil, List.flatMap_nil, Token.scan]
  | cons p ps ih =>
    obtain ⟨hp, hps⟩ := List.forall_mem_cons.mp hps
    -- After a piece that is not of words comes no number.
    have hnext : spaced ps = true ∧ (p.isWords = false →
        ∀ c ∈ (ps.flatMap fun p => p.text.toList).head?, c.isDigit = false) := by
      cases ps with
      | nil => exact ⟨rfl, nofun⟩
      | cons q ps =>
        rw [spaced, Bool.and_eq_true, Bool.or_eq_true] at hspaced
        refine ⟨hspaced.2, fun hwords => ?_⟩
        rw [hwords, Bool.not_eq_true', or_iff_left Bool.false_ne_true] at hspaced
        rw [List.flatMap_cons]
        exact head_text (hps q List.mem_cons_self) hspaced.1 _
    rw [List.flatMap_cons, List.flatMap_cons, scan_append hp hnext.2, ih hps hnext.1]

/-- The characters among the tokens of a piece are its words. -/
lemma filterMap_char?_tokens {piece : Piece} (hpiece : piece.Readable) :
    piece.tokens.filterMap Token.char? = piece.wording.flatMap String.toList := by
  have hwords : ∀ s, (Token.ofWords s).filterMap Token.char? = s.toList := by
    intro s
    rw [Token.ofWords, List.filterMap_map]
    exact List.filterMap_some
  cases piece with
  | words s => rw [tokens, wording, hwords, List.flatMap_singleton]
  | name s | number n => rfl
  | label s =>
    obtain ⟨token, hchar, -, htokens, -⟩ := exists_tokens_label hpiece
    rw [htokens, wording, List.filterMap_append, hwords, List.filterMap_cons_none hchar,
      List.filterMap_nil, List.append_nil, List.flatMap_singleton]

end Piece

/-! ### Wordings -/

namespace Tag

/-- The kinds that have two texts. -/
def varied : List Tag :=
  [.useAsErrorResult, .argFldPass, .useAsReturn, .useAsNonErrorRetDependentOnErrorRetNilability,
    .useAsErrorRetWithNilabilityUnknown]

/-- Fields that say nothing, but for the choice of the text. -/
def blank (choice : Bool) : (t : Tag) → t.Fields
  | .ptrLoad | .mapAccess | .mapWrittenTo | .sliceAccess | .fldAccess | .chanAccess
  | .deepAssignPrimitive => ()
  | .localVarAssignDeep | .fldAssign | .globalVarAssign | .recvPass | .sliceAssign | .arrayAssign
  | .ptrAssign | .mapAssign | .chanSend | .fieldAssignDeep | .globalVarAssignDeep
  | .fldEscape => ("", ())
  | .useAsErrorResult => (0, "", choice, "", ())
  | .argFldPass => ("", "", 0, choice, ())
  | .argPass | .paramAssignDeep | .variadicParamAssignDeep => ("", "", ())
  | .interfaceResultFromImplementation => (0, "", "", ())
  | .methodParamFromInterface => ("", "", "", ())
  | .useAsReturn | .useAsErrorRetWithNilabilityUnknown => ("", 0, choice, "", ())
  | .useAsFldOfReturn => ("", "", 0, ())
  | .funcRetAssignDeep => ("", 0, ())
  | .useAsNonErrorRetDependentOnErrorRetNilability => ("", 0, "", 0, choice, ())

end Tag

namespace Payload

/-- Which of two texts a payload has. -/
def choice : Payload → Bool
  | .useAsErrorResult _ _ b _ | .argFldPass _ _ _ b | .useAsReturn _ _ b _
  | .useAsNonErrorRetDependentOnErrorRetNilability _ _ _ _ b
  | .useAsErrorRetWithNilabilityUnknown _ _ b _ => b
  | _ => false

/-- A payload without its names and numbers. -/
def bare (p : Payload) : Payload :=
  ofFields p.tag (p.tag.blank p.choice)

/-- The words of a payload's text. -/
def wording (p : Payload) : List String :=
  p.pieces.flatMap Piece.wording

/-- All payloads without names and numbers. -/
def bares : List Payload :=
  (Tag.all.map fun t => ofFields t (t.blank false)) ++
    Tag.varied.map fun t => ofFields t (t.blank true)

/-- Names and numbers do not matter for the words. -/
lemma wording_bare (p : Payload) : p.bare.wording = p.wording := by
  cases p with
  | useAsErrorResult _ _ b _ | argFldPass _ _ _ b | useAsReturn _ _ b _
  | useAsNonErrorRetDependentOnErrorRetNilability _ _ _ _ b
  | useAsErrorRetWithNilabilityUnknown _ _ b _ => cases b <;> rfl
  | _ => rfl

/-- Every payload is in the list once its names and numbers are left out. -/
lemma bare_mem_bares (p : Payload) : p.bare ∈ bares := by
  rw [bare, bares, List.mem_append]
  cases hchoice : p.choice with
  | false => exact .inl (List.mem_map_of_mem p.tag.mem_all)
  | true =>
    have hvaried : p.tag ∈ Tag.varied := by
      cases p with
      | useAsErrorResult | argFldPass | useAsReturn | useAsNonErrorRetDependentOnErrorRetNilability
      | useAsErrorRetWithNilabilityUnknown => simp [tag, Tag.varied]
      | _ => cases hchoice
    exact .inr (List.mem_map_of_mem hvaried)

/-- The words of all texts, spelled out: no two texts have the same words, and there are neither
backticks nor digits in them. -/
lemma exists_spelling : ∃ table : List (List (List Char)),
    List.Forall₂ (List.Forall₂ fun s cs => s = String.ofList cs) (bares.map wording) table ∧
      (table.map List.flatten).Nodup ∧
        (table.all fun ws => ws.all fun cs => !cs.isEmpty && cs.all fun c => Plain c) = true :=
  -- The characters are read off from the literals, which is far faster than to compute them.
  ⟨_, by repeat' constructor, by decide +kernel, by decide +kernel⟩

/-- Spelled out, words are the lists of their characters. -/
lemma map_toList_eq {ss : List String} {table : List (List Char)}
    (h : List.Forall₂ (fun s cs => s = String.ofList cs) ss table) :
    ss.map String.toList = table := by
  rw [← List.forall₂_eq_eq_eq, List.forall₂_map_left_iff]
  refine h.imp fun s cs hs => ?_
  rw [hs, String.toList_ofList]

/-- The table of words is that of their characters. -/
lemma wording_bares :
    (bares.map fun p => p.wording.flatMap String.toList).Nodup ∧
      ∀ p ∈ bares, ∀ s ∈ p.wording, s.toList ≠ [] ∧ ∀ c ∈ s.toList, Plain c := by
  obtain ⟨table, hspelled, hnodup, hplain⟩ := exists_spelling
  have htable : (bares.map wording).map (List.map String.toList) = table := by
    rw [← List.forall₂_eq_eq_eq, List.forall₂_map_left_iff]
    exact hspelled.imp fun _ _ => map_toList_eq
  subst htable
  rw [List.map_map, List.map_map] at hnodup
  simp only [List.all_eq_true, Bool.and_eq_true, Bool.not_eq_true', List.isEmpty_eq_false_iff,
    decide_eq_true_eq] at hplain
  refine ⟨hnodup, fun p hp s hs => ?_⟩
  exact hplain _ (List.mem_map_of_mem (List.mem_map_of_mem hp)) _ (List.mem_map_of_mem hs)

/-- Texts with the same words are those of the same kind, with the same choice. -/
lemma bare_eq_of_wording {p q : Payload}
    (h : p.wording.flatMap String.toList = q.wording.flatMap String.toList) : p.bare = q.bare := by
  refine List.inj_on_of_nodup_map wording_bares.1 p.bare_mem_bares q.bare_mem_bares ?_
  rw [wording_bare, wording_bare, h]

/-- Pieces are readable if their names are clean. -/
lemma readable_of_clean {p : Payload} (hp : ∀ piece ∈ p.pieces, piece.Clean) :
    ∀ piece ∈ p.pieces, piece.Readable := by
  intro piece hpiece
  refine ⟨hp piece hpiece, fun s hs => wording_bares.2 p.bare p.bare_mem_bares s ?_⟩
  rw [wording_bare]
  exact List.mem_flatMap_of_mem hpiece hs

/-! ### What a text tells -/

/-- The tokens of a payload's text. -/
def tokens (p : Payload) : List Token :=
  p.pieces.flatMap Piece.tokens

/-- A report has words before each number. -/
lemma spaced_pieces (p : Payload) : Piece.spaced p.pieces = true := by
  cases p with
  | useAsErrorResult _ _ b _ | argFldPass _ _ _ b | useAsReturn _ _ b _
  | useAsNonErrorRetDependentOnErrorRetNilability _ _ _ _ b
  | useAsErrorRetWithNilabilityUnknown _ _ b _ => cases b <;> rfl
  | _ => rfl

/-- The text of a payload is taken apart into its tokens. -/
lemma scan_text {p : Payload} (hp : ∀ piece ∈ p.pieces, piece.Clean) :
    Token.scan p.text.toList = p.tokens := by
  rw [text, String.toList_join, List.flatMap_map]
  exact Piece.scan_pieces (readable_of_clean hp) p.spaced_pieces

/-- The words among the tokens. -/
lemma filterMap_char?_tokens {p : Payload} (hp : ∀ piece ∈ p.pieces, piece.Clean) :
    p.tokens.filterMap Token.char? = p.wording.flatMap String.toList := by
  rw [tokens, wording, List.filterMap_flatMap, List.flatMap_assoc]
  exact List.flatMap_congr fun piece hpiece =>
    Piece.filterMap_char?_tokens (readable_of_clean hp piece hpiece)

/-- Payloads are alike if they are the same, up to the name of a result that is not returned through
it. -/
inductive Alike : Payload → Payload → Prop where
  | refl (p : Payload) : Alike p p
  | useAsErrorResult (index : Nat) (func name name' : String) :
      Alike (.useAsErrorResult index func false name) (.useAsErrorResult index func false name')
  | useAsReturn (func : String) (index : Nat) (name name' : String) :
      Alike (.useAsReturn func index false name) (.useAsReturn func index false name')
  | useAsNonErrorRetDependentOnErrorRetNilability (func : String) (index : Nat)
      (name name' : String) (errorIndex : Nat) :
      Alike (.useAsNonErrorRetDependentOnErrorRetNilability func index name errorIndex false)
        (.useAsNonErrorRetDependentOnErrorRetNilability func index name' errorIndex false)
  | useAsErrorRetWithNilabilityUnknown (func : String) (index : Nat) (name name' : String) :
      Alike (.useAsErrorRetWithNilabilityUnknown func index false name)
        (.useAsErrorRetWithNilabilityUnknown func index false name')

/-- Payloads that are alike have the same text. -/
lemma Alike.text_eq {p q : Payload} (h : Alike p q) : p.text = q.text := by
  cases h <;> rfl

/-- Payloads of the same kind and choice with the same tokens are alike.  What the tokens do not
tell is the position of a receiver, which is always zero. -/
lemma alike_ofFields {t : Tag} {fs fs' : t.Fields}
    (hread : ∀ piece ∈ (ofFields t fs).pieces, piece.Readable)
    (hread' : ∀ piece ∈ (ofFields t fs').pieces, piece.Readable)
    (hreceiver : ∀ field func index, ofFields t fs = .argFldPass field func index true → index = 0)
    (hreceiver' : ∀ field func index,
      ofFields t fs' = .argFldPass field func index true → index = 0)
    (hchoice : (ofFields t fs).choice = (ofFields t fs').choice)
    (h : (ofFields t fs).tokens = (ofFields t fs').tokens) :
    (ofFields t fs).Alike (ofFields t fs') := by
  cases t with
  | ptrLoad | mapAccess | mapWrittenTo | sliceAccess | fldAccess | chanAccess
  | deepAssignPrimitive => exact .refl _
  | localVarAssignDeep | fldAssign | globalVarAssign | recvPass | sliceAssign | arrayAssign
  | ptrAssign | mapAssign | chanSend | fieldAssignDeep | globalVarAssignDeep | fldEscape =>
    obtain ⟨name, ⟨⟩⟩ := fs
    obtain ⟨name', ⟨⟩⟩ := fs'
    obtain rfl : name = name' := by simpa [ofFields, tokens, pieces, Piece.tokens] using h
    exact .refl _
  | useAsErrorResult =>
    obtain ⟨index, func, named, name, ⟨⟩⟩ := fs
    obtain ⟨index', func', named', name', ⟨⟩⟩ := fs'
    obtain rfl : named = named' := hchoice
    cases named with
    | false =>
      obtain ⟨rfl, rfl⟩ : index = index' ∧ func = func' := by
        simpa [ofFields, tokens, pieces, Piece.tokens] using h
      exact .useAsErrorResult ..
    | true =>
      obtain ⟨rfl, rfl, rfl⟩ : name = name' ∧ index = index' ∧ func = func' := by
        simpa [ofFields, tokens, pieces, Piece.tokens] using h
      exact .refl _
  | argFldPass =>
    obtain ⟨field, func, index, receiver, ⟨⟩⟩ := fs
    obtain ⟨field', func', index', receiver', ⟨⟩⟩ := fs'
    obtain rfl : receiver = receiver' := hchoice
    cases receiver with
    | false =>
      obtain ⟨rfl, rfl, rfl⟩ : field = field' ∧ index = index' ∧ func = func' := by
        simpa [ofFields, tokens, pieces, Piece.tokens] using h
      exact .refl _
    | true =>
      obtain ⟨rfl, rfl⟩ : field = field' ∧ func = func' := by
        simpa [ofFields, tokens, pieces, Piece.tokens] using h
      obtain rfl := hreceiver _ _ _ rfl
      obtain rfl := hreceiver' _ _ _ rfl
      exact .refl _
  | argPass | paramAssignDeep =>
    obtain ⟨param, func, ⟨⟩⟩ := fs
    obtain ⟨param', func', ⟨⟩⟩ := fs'
    have hlabel : Piece.Readable (.label param) := hread _ (.tail _ (.head _))
    have hlabel' : Piece.Readable (.label param') := hread' _ (.tail _ (.head _))
    obtain ⟨rfl, hrest⟩ := Piece.label_append_inj hlabel hlabel' (List.append_cancel_left h)
    obtain rfl : func = func' := by simpa [Piece.tokens] using hrest
    exact .refl _
  | variadicParamAssignDeep =>
    obtain ⟨param, func, ⟨⟩⟩ := fs
    obtain ⟨param', func', ⟨⟩⟩ := fs'
    obtain ⟨rfl, rfl⟩ : param = param' ∧ func = func' := by
      simpa [ofFields, tokens, pieces, Piece.tokens] using h
    exact .refl _
  | interfaceResultFromImplementation =>
    obtain ⟨index, interface, implementing, ⟨⟩⟩ := fs
    obtain ⟨index', interface', implementing', ⟨⟩⟩ := fs'
    obtain ⟨rfl, rfl, rfl⟩ :
        index = index' ∧ interface = interface' ∧ implementing = implementing' := by
      simpa [ofFields, tokens, pieces, Piece.tokens] using h
    exact .refl _
  | methodParamFromInterface =>
    obtain ⟨param, implementing, interface, ⟨⟩⟩ := fs
    obtain ⟨param', implementing', interface', ⟨⟩⟩ := fs'
    obtain ⟨rfl, rfl, rfl⟩ :
        param = param' ∧ implementing = implementing' ∧ interface = interface' := by
      simpa [ofFields, tokens, pieces, Piece.tokens] using h
    exact .refl _
  | useAsReturn =>
    obtain ⟨func, index, named, name, ⟨⟩⟩ := fs
    obtain ⟨func', index', named', name', ⟨⟩⟩ := fs'
    obtain rfl : named = named' := hchoice
    cases named with
    | false =>
      obtain ⟨rfl, rfl⟩ : func = func' ∧ index = index' := by
        simpa [ofFields, tokens, pieces, Piece.tokens] using h
      exact .useAsReturn ..
    | true =>
      obtain ⟨rfl, rfl, rfl⟩ : func = func' ∧ name = name' ∧ index = index' := by
        simpa [ofFields, tokens, pieces, Piece.tokens] using h
      exact .refl _
  | useAsErrorRetWithNilabilityUnknown =>
    obtain ⟨func, index, named, name, ⟨⟩⟩ := fs
    obtain ⟨func', index', named', name', ⟨⟩⟩ := fs'
    obtain rfl : named = named' := hchoice
    cases named with
    | false =>
      obtain ⟨rfl, rfl⟩ : func = func' ∧ index = index' := by
        simpa [ofFields, tokens, pieces, Piece.tokens] using h
      exact .useAsErrorRetWithNilabilityUnknown ..
    | true =>
      obtain ⟨rfl, rfl, rfl⟩ : func = func' ∧ name = name' ∧ index = index' := by
        simpa [ofFields, tokens, pieces, Piece.tokens] using h
      exact .refl _
  | useAsFldOfReturn =>
    obtain ⟨func, field, index, ⟨⟩⟩ := fs
    obtain ⟨func', field', index', ⟨⟩⟩ := fs'
    obtain ⟨rfl, rfl, rfl⟩ : field = field' ∧ func = func' ∧ index = index' := by
      simpa [ofFields, tokens, pieces, Piece.tokens] using h
    exact .refl _
  | funcRetAssignDeep =>
    obtain ⟨func, index, ⟨⟩⟩ := fs
    obtain ⟨func', index', ⟨⟩⟩ := fs'
    obtain ⟨rfl, rfl⟩ : func = func' ∧ index = index' := by
      simpa [ofFields, tokens, pieces, Piece.tokens] using h
    exact .refl _
  | useAsNonErrorRetDependentOnErrorRetNilability =>
    obtain ⟨func, index, name, errorIndex, named, ⟨⟩⟩ := fs
    obtain ⟨func', index', name', errorIndex', named', ⟨⟩⟩ := fs'
    obtain rfl : named = named' := hchoice
    cases named with
    | false =>
      obtain ⟨rfl, rfl, rfl⟩ : func = func' ∧ index = index' ∧ errorIndex = errorIndex' := by
        simpa [ofFields, tokens, pieces, Piece.tokens] using h
      exact .useAsNonErrorRetDependentOnErrorRetNilability ..
    | true =>
      obtain ⟨rfl, rfl, rfl, rfl⟩ :
          func = func' ∧ name = name' ∧ index = index' ∧ errorIndex = errorIndex' := by
        simpa [ofFields, tokens, pieces, Piece.tokens] using h
      exact .refl _

/-- A payload without its names and numbers is of the same kind. -/
lemma tag_bare (p : Payload) : p.bare.tag = p.tag := by
  cases p <;> rfl

/-- A payload without its names and numbers has the same of two texts. -/
lemma choice_bare (p : Payload) : p.bare.choice = p.choice := by
  cases p <;> rfl

/-- Texts are the same if the payloads are alike. -/
lemma text_eq_iff_alike {p q : Payload} (hclean : ∀ piece ∈ p.pieces, piece.Clean)
    (hclean' : ∀ piece ∈ q.pieces, piece.Clean)
    (hreceiver : ∀ field func index, p = .argFldPass field func index true → index = 0)
    (hreceiver' : ∀ field func index, q = .argFldPass field func index true → index = 0) :
    p.text = q.text ↔ p.Alike q := by
  refine ⟨fun htext => ?_, Alike.text_eq⟩
  have htokens : p.tokens = q.tokens := by rw [← scan_text hclean, ← scan_text hclean', htext]
  have hbare : p.bare = q.bare := by
    refine bare_eq_of_wording ?_
    rw [← filterMap_char?_tokens hclean, ← filterMap_char?_tokens hclean', htokens]
  have hchoice : p.choice = q.choice := by rw [← p.choice_bare, hbare, q.choice_bare]
  have htag : p.tag = q.tag := by rw [← p.tag_bare, hbare, q.tag_bare]
  have hp : ∃ fs : p.tag.Fields, p = ofFields p.tag fs := ⟨p.fields, p.ofFields_fields.symm⟩
  have hq : ∃ fs : p.tag.Fields, q = ofFields p.tag fs := htag ▸ ⟨q.fields, q.ofFields_fields.symm⟩
  generalize p.tag = t at hp hq
  obtain ⟨fs, rfl⟩ := hp
  obtain ⟨fs', rfl⟩ := hq
  exact alike_ofFields (readable_of_clean hclean) (readable_of_clean hclean') hreceiver hreceiver'
    hchoice htokens

end Payload

/-! ### Triggers -/

/-- The names in the declaration of a function. -/
def FuncDecl.names (f : FuncDecl) : List String :=
  f.name :: f.package :: (f.receiver.toList ++ (f.params ++ f.results).map Slot.name)

/-- The names in the declarations that triggers of a kind are built from. -/
def Tag.names : (tag : Tag) → tag.Parts → List String
  | .ptrLoad, () | .mapAccess, () | .mapWrittenTo, () | .sliceAccess, () | .fldAccess, ()
  | .chanAccess, () | .deepAssignPrimitive, () => []
  | .localVarAssignDeep, var | .globalVarAssign, var | .globalVarAssignDeep, var => [var.name]
  | .fldAssign, field | .fieldAssignDeep, field | .fldEscape, field => [field.name]
  | .sliceAssign, elem | .arrayAssign, elem | .ptrAssign, elem | .mapAssign, elem
  | .chanSend, elem => [elem.name]
  | .recvPass, func => func.names
  | .argPass, (func, _) | .paramAssignDeep, (func, _) | .variadicParamAssignDeep, (func, _)
  | .funcRetAssignDeep, (func, _) => func.names
  | .argFldPass, (func, _, field) => field.name :: func.names
  | .useAsFldOfReturn, (func, _, field) => field.name :: func.names
  | .useAsErrorResult, (func, _, _, _) | .useAsReturn, (func, _, _, _)
  | .useAsNonErrorRetDependentOnErrorRetNilability, (func, _, _, _)
  | .useAsErrorRetWithNilabilityUnknown, (func, _, _, _) => func.names
  | .interfaceResultFromImplementation, (func, _, pair)
  | .methodParamFromInterface, (func, _, pair) =>
    func.names ++ (pair.interface.names ++ pair.implementing.names)

namespace FuncDecl

/-- The names of parameters are names of the function. -/
lemma param_mem_names {f : FuncDecl} {slot : Slot} (h : slot ∈ f.params) : slot.name ∈ f.names :=
  .tail _ (.tail _ (List.mem_append_right _ (List.mem_map_of_mem (List.mem_append_left _ h))))

/-- The names of results are names of the function. -/
lemma result_mem_names {f : FuncDecl} {slot : Slot} (h : slot ∈ f.results) : slot.name ∈ f.names :=
  .tail _ (.tail _ (List.mem_append_right _ (List.mem_map_of_mem (List.mem_append_right _ h))))

/-- A qualified name has no backtick if the names of the function have none. -/
lemma clean_qualifiedName {f : FuncDecl} (h : ∀ s ∈ f.names, backtick ∉ s.toList) :
    backtick ∉ f.qualifiedName.toList := by
  have hdot : backtick ∉ ".".toList := by decide
  have hname := h f.name (.head _)
  have hpackage := h f.package (.tail _ (.head _))
  rw [qualifiedName]
  split
  · rename_i r hr
    have hreceiver : backtick ∉ r.toList := by
      refine h r (.tail _ (.tail _ (List.mem_append_left _ ?_)))
      rw [hr]
      exact .head _
    simp only [String.toList_append, List.mem_append, hreceiver, hdot, hname, or_self,
      not_false_eq_true]
  · split
    · exact hname
    · simp only [String.toList_append, List.mem_append, hpackage, hdot, hname, or_self,
        not_false_eq_true]

end FuncDecl

namespace ParamSite

/-- The slot of a parameter has a name without backtick if the names of the function have none. -/
lemma clean_slot {s : ParamSite} (h : ∀ x ∈ s.func.names, backtick ∉ x.toList) :
    backtick ∉ s.slot.name.toList :=
  h _ (FuncDecl.param_mem_names (List.get_mem _ _))

/-- The label of a parameter is clean. -/
lemma clean_label {s : ParamSite} (h : ∀ x ∈ s.func.names, backtick ∉ x.toList) :
    (Piece.label s.label).Clean :=
  ⟨s.slot, s.index, clean_slot h, s.label_eq⟩

/-- The bare text of a parameter is clean. -/
lemma clean_nameText {s : ParamSite} (h : ∀ x ∈ s.func.names, backtick ∉ x.toList) :
    backtick ∉ s.nameText.toList := by
  rw [s.nameText_eq, Slot.told]
  split
  · rw [Nat.toString_eq_ofList_toDigits, String.toList_ofList]
    intro hmem
    cases Reader.isDigit_toDigits s.index _ hmem
  · exact clean_slot h

end ParamSite

/-- The name of a result is clean. -/
lemma ResultSite.clean_name {s : ResultSite} (h : ∀ x ∈ s.func.names, backtick ∉ x.toList) :
    backtick ∉ s.name.toList :=
  h _ (FuncDecl.result_mem_names (List.get_mem _ _))

namespace Trigger

/-- A trigger has a clean payload if the declarations that it is built from have no backticks in
their names. -/
lemma clean_of_build {tag : Tag} {parts : tag.Parts} {t : Trigger}
    (h : Trigger.build tag parts = .ok t) (hnames : ∀ s ∈ tag.names parts, backtick ∉ s.toList) :
    ∀ piece ∈ t.payload.pieces, piece.Clean := by
  obtain ⟨rfl, rfl⟩ := parts_of_build h
  rw [← List.forall_iff_forall_mem]
  cases t with
  | ptrLoad | mapAccess | mapWrittenTo | sliceAccess | fldAccess | chanAccess
  | deepAssignPrimitive => trivial
  | fldAssign | fldEscape | sliceAssign | arrayAssign | ptrAssign | mapAssign | chanSend
  | globalVarAssign | recvPass => exact ⟨trivial, hnames _ (.head _)⟩
  | localVarAssignDeep | fieldAssignDeep | globalVarAssignDeep =>
    exact ⟨trivial, hnames _ (.head _), trivial⟩
  | argPass | paramAssignDeep =>
    exact ⟨trivial, ParamSite.clean_label hnames, trivial, hnames _ (.head _)⟩
  | variadicParamAssignDeep =>
    exact ⟨trivial, ParamSite.clean_nameText hnames, trivial, hnames _ (.head _)⟩
  | funcRetAssignDeep => exact ⟨trivial, hnames _ (.head _), trivial, trivial⟩
  | useAsFldOfReturn =>
    exact ⟨trivial, hnames _ (.head _), trivial, hnames _ (.tail _ (.head _)), trivial, trivial⟩
  | argFldPass s =>
    obtain ⟨argument, field⟩ := s
    have hfield : backtick ∉ field.name.toList := hnames _ (.head _)
    have hfunc : backtick ∉ argument.func.name.toList := hnames _ (.tail _ (.head _))
    cases argument with
    | receiver => exact ⟨trivial, hfield, trivial, hfunc⟩
    | param => exact ⟨trivial, hfield, trivial, trivial, trivial, hfunc⟩
  | useAsErrorResult s | useAsReturn s | useAsNonErrorRetDependentOnErrorRetNilability s
  | useAsErrorRetWithNilabilityUnknown s =>
    have hfunc : backtick ∉ s.result.func.name.toList := hnames _ (.head _)
    have hname : backtick ∉ s.result.name.toList := ResultSite.clean_name hnames
    cases hnamed : s.named <;> simp [payload, Payload.pieces, Piece.Clean, hnamed, hfunc, hname]
  | interfaceResultFromImplementation =>
    obtain ⟨hfunc, hpair⟩ := List.forall_mem_append.mp hnames
    have himplementing := (List.forall_mem_append.mp hpair).2
    exact ⟨trivial, trivial, trivial, FuncDecl.clean_qualifiedName hfunc, trivial,
      FuncDecl.clean_qualifiedName himplementing, trivial⟩
  | methodParamFromInterface =>
    obtain ⟨hfunc, hpair⟩ := List.forall_mem_append.mp hnames
    have hinterface := (List.forall_mem_append.mp hpair).1
    exact ⟨trivial, ParamSite.clean_nameText hfunc, trivial, FuncDecl.clean_qualifiedName hfunc,
      trivial, FuncDecl.clean_qualifiedName hinterface, trivial⟩

/-- A receiver counts as position zero. -/
lemma index_of_receiver {t : Trigger} {field func : String} {index : Nat}
    (h : t.payload = .argFldPass field func index true) : index = 0 := by
  cases t with
  | argFldPass s =>
    obtain ⟨argument, fieldDecl⟩ := s
    cases argument with
    | param p => cases h
    | receiver r =>
      cases h
      rfl
  | _ => cases h

/-- The texts of triggers are unambiguous.  If no declaration that two triggers are built from has a
backtick in a name, then their texts are the same exactly if their payloads are, in kind and fields,
up to the name of a result that is not returned through it. -/
theorem text_eq_iff_payload_alike (tag tag' : Tag) (parts : tag.Parts) (parts' : tag'.Parts)
    (t t' : Trigger) (h : Trigger.build tag parts = .ok t) (h' : Trigger.build tag' parts' = .ok t')
    (hnames : ∀ s ∈ tag.names parts, backtick ∉ s.toList)
    (hnames' : ∀ s ∈ tag'.names parts', backtick ∉ s.toList) :
    t.text = t'.text ↔ t.payload.Alike t'.payload :=
  Payload.text_eq_iff_alike (clean_of_build h hnames) (clean_of_build h' hnames')
    (fun _ _ _ => index_of_receiver) (fun _ _ _ => index_of_receiver)

/-- Functions whose results are named differently: the texts tell the results apart if they are
returned through their names, and else they do not. -/
theorem text_eq_iff_payload_alike_of_two_names :
    let func (name : String) : FuncDecl :=
      { FuncDecl.plain ⟨1⟩ "load" with results := [⟨name, "*Config"⟩] }
    let site (name : String) (named : Bool) : ReturnSite :=
      ⟨⟨func name, 0, Nat.one_pos⟩, ⟨⟨4⟩, ⟨1⟩, .point "load.go" 9 2⟩, named, rfl⟩
    (∀ s ∈ (func "conf").names ++ (func "c").names, backtick ∉ s.toList) ∧
      (useAsReturn (site "conf" false)).text = (useAsReturn (site "c" false)).text ∧
        (useAsReturn (site "conf" true)).text ≠ (useAsReturn (site "c" true)).text := by
  intro func site
  have hnames : ∀ s ∈ (func "conf").names ++ (func "c").names, backtick ∉ s.toList := by
    decide +kernel
  obtain ⟨hconf, hc⟩ := List.forall_mem_append.mp hnames
  have htext (named : Bool) := text_eq_iff_payload_alike .useAsReturn .useAsReturn
    (func "conf", 0, (site "conf" named).stmt, named) (func "c", 0, (site "c" named).stmt, named)
    (.useAsReturn (site "conf" named)) (.useAsReturn (site "c" named)) rfl rfl hconf hc
  have hname {name name' : String}
      (halike : Payload.Alike (.useAsReturn "load" 0 true name)
        (.useAsReturn "load" 0 true name')) :
      name = name' := by
    cases halike
    rfl
  refine ⟨hnames, (htext false).mpr (.useAsReturn ..), (htext true).not.mpr fun halike => ?_⟩
  exact absurd (hname halike) (by decide)

end Trigger

end NilFlow
