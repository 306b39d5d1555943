import FlowAtlas.Proofs.Results
import FlowAtlas.Text.Stream

/-! UTF-8 cut anywhere. What follows a text is decoded by itself, and the bytes of a character that the cut
leaves over begin the rest. -/

namespace FlowAtlas.Text

namespace Utf8
variable {b : UInt8} {xs ys : List UInt8} {open? : Option Partial} {p : Partial} {ps qs : List Piece}
  {as bs cs : List Char} {s : String} {k : Nat}

inductive Spells : List Piece → List Char → Prop
  | nil : Spells [] []
  | cons (c : Char) (bytes : List UInt8) {ps : List Piece} {cs : List Char} (rest : Spells ps cs) :
      Spells (.char c bytes :: ps) (c :: cs)

def Decodes (bytes : List UInt8) (cs : List Char) : Prop :=
  Spells (pieces bytes) cs

theorem collect_eq_ok_iff : collect k ps = .ok cs ↔ Spells ps cs := by
  induction ps generalizing k cs with
  | nil =>
    constructor
    · intro h
      cases h
      exact .nil
    · intro h
      cases h
      rfl
  | cons piece rest ih =>
    cases piece with
    | illFormed bytes reason => exact iff_of_false nofun nofun
    | char c bytes =>
      rw [collect]
      constructor
      · intro h
        obtain ⟨more, hrest, rfl⟩ := exists_of_map h
        exact .cons c bytes (ih.mp hrest)
      · rintro (_ | ⟨_, _, h⟩)
        rw [ih.mpr h]
        rfl

theorem decode_eq_ok_iff : decode xs = .ok s ↔ Decodes xs s.toList := by
  rw [decode, Decodes, ← collect_eq_ok_iff (k := 0)]
  cases collect 0 (pieces xs) with
  | error f => exact iff_of_false nofun nofun
  | ok cs =>
    simp only [Except.map, Except.ok.injEq]
    constructor
    · rintro rfl
      exact String.toList_ofList.symm
    · rintro rfl
      exact String.ofList_toList

theorem spells_append_iff :
    Spells (ps ++ qs) cs ↔ ∃ as bs, Spells ps as ∧ Spells qs bs ∧ as ++ bs = cs := by
  induction ps generalizing cs with
  | nil =>
    constructor
    · exact fun h => ⟨[], cs, .nil, h, rfl⟩
    · rintro ⟨as, bs, ⟨⟩, h, rfl⟩
      exact h
  | cons piece rest ih =>
    constructor
    · rintro (_ | ⟨c, bytes, h⟩)
      obtain ⟨as, bs, has, hbs, rfl⟩ := ih.mp h
      exact ⟨c :: as, bs, .cons c bytes has, hbs, rfl⟩
    · rintro ⟨_, bs, has, hbs, rfl⟩
      cases has with
      | cons c bytes has => exact .cons c bytes (ih.mpr ⟨_, bs, has, hbs, rfl⟩)

theorem collect_illFormed (h : Spells ps cs) (bytes : List UInt8) (reason : Reason) (k : Nat) :
    collect k (ps ++ [.illFormed bytes reason]) =
      .error ⟨k + (ps.flatMap Piece.bytes).length, bytes, reason⟩ := by
  induction h generalizing k with
  | nil => rfl
  | cons c own rest ih =>
    rw [List.cons_append, collect, ih, List.flatMap_cons, List.length_append, ← Nat.add_assoc]
    rfl

def seen (open? : Option Partial) : List UInt8 :=
  (open?.map Partial.seen).getD []

/-- The bytes of a begun character begin it again. -/
def Resumes (open? : Option Partial) : Prop :=
  ∀ more, piecesFrom none (seen open? ++ more) = piecesFrom open? more

def Piece.Whole (piece : Piece) : Prop :=
  ∀ c bytes, piece = .char c bytes →
    bytes ≠ [] ∧ ∀ more, piecesFrom none (bytes ++ more) = piece :: piecesFrom none more

theorem resumes_none : Resumes none :=
  fun _ => rfl

theorem piecesFrom_of_start {piece : Piece} (h : start b = .inl piece) (more : List UInt8) :
    piecesFrom none (b :: more) = piece :: piecesFrom none more := by
  rw [piecesFrom]
  simp only [h]

theorem piecesFrom_of_begin (h : start b = .inr p) (more : List UInt8) :
    piecesFrom none (b :: more) = piecesFrom (some p) more := by
  rw [piecesFrom]
  simp only [h]

theorem piecesFrom_cases (p : Partial) (b : UInt8) :
    (∃ c, ∀ more, piecesFrom (some p) (b :: more) = .char c (p.seen ++ [b]) :: piecesFrom none more) ∨
      (∃ q, q.seen = p.seen ++ [b] ∧ ∀ more, piecesFrom (some p) (b :: more) = piecesFrom (some q) more) ∨
      ∀ more, piecesFrom (some p) (b :: more) =
        .illFormed p.seen .continuationByte :: piecesFrom none (b :: more) := by
  let value := p.value * 64 + (b.toNat - 0x80)
  by_cases hrange : p.low ≤ b ∧ b ≤ p.high
  · by_cases hlast : p.needed ≤ 1
    · refine .inl ⟨Char.ofNat value, fun more => ?_⟩
      rw [piecesFrom, if_pos hrange, if_pos hlast]
    · refine .inr (.inl ⟨⟨p.seen ++ [b], value, p.needed - 1, 0x80, 0xBF⟩, rfl, fun more => ?_⟩)
      rw [piecesFrom, if_pos hrange, if_neg hlast]
  · refine .inr (.inr fun more => ?_)
    simp only [piecesFrom, if_neg hrange]

theorem seen_of_begin (h : start b = .inr p) : p.seen = [b] := by
  have hbytes := start_bytes b
  rwa [h] at hbytes

theorem resumes_of_begin (h : start b = .inr p) : Resumes (some p) := by
  intro more
  rw [← piecesFrom_of_begin h]
  exact congrArg (piecesFrom none) (congrArg (· ++ more) (seen_of_begin h))

theorem whole_of_start {piece : Piece} (h : start b = .inl piece) : piece.Whole := by
  have hbytes := start_bytes b
  rw [h] at hbytes
  rintro c bytes rfl
  obtain rfl : bytes = [b] := hbytes
  exact ⟨nofun, piecesFrom_of_start h⟩

/-- Before whatever follows, the bytes make pieces and begin a character that can be resumed. -/
def Splits (open? : Option Partial) (xs : List UInt8) : Prop :=
  ∃ done after, (∀ piece ∈ done, piece.Whole) ∧ Resumes after ∧
    ∀ more, piecesFrom open? (xs ++ more) = done ++ piecesFrom after more

theorem Splits.of_eq {open' : Option Partial} (h : Splits open' ys)
    (heq : ∀ more, piecesFrom open? (xs ++ more) = piecesFrom open' (ys ++ more)) : Splits open? xs := by
  obtain ⟨done, after, hdone, hafter, hsplit⟩ := h
  exact ⟨done, after, hdone, hafter, fun more => (heq more).trans (hsplit more)⟩

theorem Splits.of_cons {open' : Option Partial} {piece : Piece} (h : Splits open' ys) (hpiece : piece.Whole)
    (heq : ∀ more, piecesFrom open? (xs ++ more) = piece :: piecesFrom open' (ys ++ more)) :
    Splits open? xs := by
  obtain ⟨done, after, hdone, hafter, hsplit⟩ := h
  exact ⟨piece :: done, after, List.forall_mem_cons.mpr ⟨hpiece, hdone⟩, hafter,
    fun more => (heq more).trans (congrArg (piece :: ·) (hsplit more))⟩

/-- Bytes can be cut anywhere. -/
theorem splits (h : Resumes open?) (xs : List UInt8) : Splits open? xs := by
  induction xs generalizing open? with
  | nil => exact ⟨[], open?, nofun, h, fun _ => rfl⟩
  | cons b rest ih =>
    have hbetween : Splits none (b :: rest) := by
      cases hstart : start b with
      | inl piece =>
        exact (ih resumes_none).of_cons (whole_of_start hstart) fun more => piecesFrom_of_start hstart _
      | inr p => exact (ih (resumes_of_begin hstart)).of_eq fun more => piecesFrom_of_begin hstart _
    cases open? with
    | none => exact hbetween
    | some p =>
      have hresume : ∀ more, piecesFrom none (p.seen ++ [b] ++ more) = piecesFrom (some p) (b :: more) := by
        intro more
        rw [List.append_assoc]
        exact h (b :: more)
      rcases piecesFrom_cases p b with ⟨c, hchar⟩ | ⟨q, hseen, hmore⟩ | hbroken
      · have hwhole : (Piece.char c (p.seen ++ [b])).Whole := by
          rintro c bytes ⟨⟩
          exact ⟨List.append_ne_nil_of_right_ne_nil _ (List.cons_ne_nil b []),
            fun more => (hresume more).trans (hchar more)⟩
        exact (ih resumes_none).of_cons hwhole fun more => hchar _
      · have hq : Resumes (some q) := by
          intro more
          rw [← hmore, ← hresume]
          exact congrArg (piecesFrom none) (congrArg (· ++ more) hseen)
        exact (ih hq).of_eq fun more => hmore _
      · have hpiece : (Piece.illFormed p.seen .continuationByte).Whole := nofun
        exact hbetween.of_cons hpiece fun more => hbroken _

theorem pieces_of_split {done : List Piece} {after : Option Partial}
    (h : ∀ more, piecesFrom none (xs ++ more) = done ++ piecesFrom after more) :
    pieces xs = done ++ piecesFrom after [] := by
  rw [← h, List.append_nil]
  rfl

theorem not_spells_illFormed {bytes : List UInt8} {reason : Reason} :
    ¬Spells (ps ++ [.illFormed bytes reason]) cs := by
  intro h
  obtain ⟨as, bs, -, hbs, -⟩ := spells_append_iff.mp h
  cases hbs

theorem Spells.eq (has : Spells ps as) (hbs : Spells ps bs) : as = bs :=
  Except.ok.inj ((collect_eq_ok_iff (k := 0)).mpr has ▸ collect_eq_ok_iff.mpr hbs)

theorem pieces_append (h : Decodes xs cs) (ys : List UInt8) :
    pieces (xs ++ ys) = pieces xs ++ pieces ys ∧ ∀ piece ∈ pieces xs, piece.Whole := by
  obtain ⟨done, after, hdone, -, hsplit⟩ := splits resumes_none xs
  have hpieces := pieces_of_split hsplit
  cases after with
  | some p =>
    rw [Decodes, hpieces] at h
    exact absurd h not_spells_illFormed
  | none =>
    have hdone' : pieces xs = done := hpieces.trans (List.append_nil done)
    rw [hdone']
    exact ⟨hsplit ys, hdone⟩

theorem decodes_append_iff (h : Decodes xs as) :
    Decodes (xs ++ ys) cs ↔ ∃ bs, Decodes ys bs ∧ as ++ bs = cs := by
  rw [Decodes, (pieces_append h ys).1, spells_append_iff]
  constructor
  · rintro ⟨as', bs, has, hbs, rfl⟩
    exact ⟨bs, hbs, by rw [has.eq h]⟩
  · rintro ⟨bs, hbs, rfl⟩
    exact ⟨as, bs, h, hbs, rfl⟩

theorem pieces_flatMap {done : List Piece} (hdone : ∀ piece ∈ done, piece.Whole) (h : Spells done cs) :
    pieces (done.flatMap Piece.bytes) = done := by
  induction h with
  | nil => rfl
  | cons c bytes rest ih =>
    obtain ⟨hwhole, hrest⟩ := List.forall_mem_cons.mp hdone
    rw [List.flatMap_cons, pieces]
    exact ((hwhole c bytes rfl).2 _).trans (congrArg (_ :: ·) (ih hrest))

theorem length_le_of_decodes (h : Decodes xs cs) : cs.length ≤ xs.length := by
  have hwhole := (pieces_append h []).2
  have hbytes : (pieces xs).flatMap Piece.bytes = xs := flatMap_bytes_piecesFrom none xs
  rw [← hbytes]
  rw [Decodes] at h
  generalize pieces xs = done at h hwhole
  induction h with
  | nil => exact Nat.le_refl 0
  | cons c bytes rest ih =>
    obtain ⟨hfirst, hrest⟩ := List.forall_mem_cons.mp hwhole
    have hpos := List.length_pos_iff.mpr (hfirst c bytes rfl).1
    have hle := ih hrest
    rw [List.flatMap_cons, List.length_append, List.length_cons]
    change _ ≤ bytes.length + _
    omega

end Utf8

namespace Intake
open Utf8
variable {xs ys cut : List UInt8} {as cs : List Char}

theorem of_decodeOpen (h : decodeOpen xs = .ok (as, cut)) :
    ∃ taken, xs = taken ++ cut ∧ Decodes taken as := by
  rw [decodeOpen] at h
  cases hdecode : decode xs with
  | ok s =>
    rw [hdecode] at h
    cases h
    exact ⟨xs, (List.append_nil xs).symm, decode_eq_ok_iff.mp hdecode⟩
  | error f =>
    rw [hdecode] at h
    dsimp only at h
    split at h
    · obtain ⟨s, htaken, hs⟩ := exists_of_map h
      obtain ⟨rfl, rfl⟩ := Prod.mk.inj hs
      exact ⟨_, (List.take_append_drop f.position xs).symm, decode_eq_ok_iff.mp htaken⟩
    · cases h

theorem exists_decodeOpen (h : Decodes (xs ++ ys) cs) : ∃ as cut, decodeOpen xs = .ok (as, cut) := by
  obtain ⟨done, after, hdone, -, hsplit⟩ := splits resumes_none xs
  have hpieces := pieces_of_split hsplit
  rw [Decodes, Utf8.pieces, hsplit] at h
  obtain ⟨as, -, has, -, -⟩ := spells_append_iff.mp h
  cases after with
  | none =>
    have hdecode : decode xs = .ok (String.ofList as) := by
      rw [decode_eq_ok_iff, Decodes, hpieces, String.toList_ofList]
      simpa [piecesFrom] using has
    refine ⟨as, [], ?_⟩
    rw [decodeOpen, hdecode]
    simp
  | some p =>
    have hpieces' : Utf8.pieces xs = done ++ [.illFormed p.seen .unexpectedEnd] := hpieces
    have hdecode : decode xs = .error ⟨(done.flatMap Piece.bytes).length, p.seen, .unexpectedEnd⟩ := by
      rw [decode, hpieces', collect_illFormed has, Nat.zero_add]
      rfl
    have hxs : done.flatMap Piece.bytes ++ p.seen = xs := by
      have hbytes : (Utf8.pieces xs).flatMap Piece.bytes = xs := flatMap_bytes_piecesFrom none xs
      rwa [hpieces', List.flatMap_append, List.flatMap_singleton] at hbytes
    have htaken : decode (done.flatMap Piece.bytes) = .ok (String.ofList as) := by
      rwa [decode_eq_ok_iff, Decodes, pieces_flatMap hdone has, String.toList_ofList]
    refine ⟨as, p.seen, ?_⟩
    rw [decodeOpen, hdecode]
    simp [← hxs, htaken, Except.map]

end Intake
end FlowAtlas.Text
