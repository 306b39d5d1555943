import FlowAtlas.Proofs.LineBreaks
import FlowAtlas.Proofs.Results
import FlowAtlas.Proofs.Utf8Pieces

/-! Reading a file piece by piece is reading it at once: the pieces of a text make up the text, and what is no
UTF-8 fails, before the first piece if the file is short. -/

namespace FlowAtlas.Text

namespace Intake
open Utf8
variable {whole taken chunk more : List UInt8} {given body cs front : List Char} {r r' : Intake}
  {wanted n : Nat}

def returnIf (back : Bool) : List Char :=
  if back then ['\r'] else []

def held (r : Intake) : List Char :=
  returnIf r.afterReturn

theorem unifyChunk_spec (afterReturn last : Bool) (cs : List Char) :
    ∃ front, (unifyChunk afterReturn last cs).1 = unifyBreaks front ∧
      returnIf afterReturn ++ cs = front ++ returnIf (unifyChunk afterReturn last cs).2 ∧
      (last = true → (unifyChunk afterReturn last cs).2 = false) ∧
      ((unifyChunk afterReturn last cs).2 = false → front.getLast? = some '\r' → last = true) := by
  have hall : (if afterReturn then '\r' :: cs else cs) = returnIf afterReturn ++ cs := by
    cases afterReturn <;> rfl
  rw [unifyChunk, hall]
  generalize returnIf afterReturn ++ cs = all
  by_cases hback : all.getLast? = some '\r' ∧ last = false
  · obtain ⟨hreturn, rfl⟩ := hback
    obtain ⟨front, rfl⟩ := List.getLast?_eq_some_iff.mp hreturn
    refine ⟨front, ?_, ?_, nofun, ?_⟩ <;> simp [returnIf]
  · have hnot : ¬(all.getLast? = some '\r' && !last) = true := by simpa using hback
    refine ⟨all, ?_, ?_, ?_, ?_⟩
    · simp [hnot]
    · simp [hnot, returnIf]
    · simp [hnot]
    · intro _ hreturn
      simpa [hreturn] using hback

/-- What taking a chunk does. The bytes left over before and those of the chunk are taken up to a character
that is cut. After the carriage return held back, what they encode gets ready up to one that is held back
again. -/
structure Takes (r r' : Intake) (chunk taken : List UInt8) (cs front : List Char) : Prop where
  bytes : r.bytes = chunk ++ r'.bytes
  cut : r.cut ++ chunk = taken ++ r'.cut
  decodes : Decodes taken cs
  chars : r.held ++ cs = front ++ r'.held
  ready : r'.ready = r.ready ++ unifyBreaks front
  atEnd : r'.atEnd = (chunk.isEmpty && (unifyBreaks front).isEmpty)
  last : chunk = [] → r'.cut ++ r'.bytes = [] ∧ r'.afterReturn = false
  between : r'.afterReturn = false → front.getLast? = some '\r' → chunk = []

theorem exists_taken {before cut : List UInt8}
    (h : (if chunk.isEmpty then (decode before).map fun s => (s.toList, [])
      else decodeOpen (before ++ chunk)) = .ok (cs, cut)) :
    ∃ taken, before ++ chunk = taken ++ cut ∧ Decodes taken cs ∧ (chunk = [] → cut = []) := by
  by_cases hchunk : chunk = []
  · rw [if_pos (List.isEmpty_iff.mpr hchunk)] at h
    obtain ⟨s, hdecode, hs⟩ := exists_of_map h
    obtain ⟨rfl, rfl⟩ := Prod.mk.inj hs
    exact ⟨before, congrArg (before ++ ·) hchunk, decode_eq_ok_iff.mp hdecode, fun _ => rfl⟩
  · rw [if_neg fun hnil => hchunk (List.isEmpty_iff.mp hnil)] at h
    obtain ⟨taken, hcut, hdecodes⟩ := of_decodeOpen h
    exact ⟨taken, hcut, hdecodes, fun hnil => absurd hnil hchunk⟩

theorem eq_nil_of_take {bytes : List UInt8} {size : Nat} (hpos : 0 < size) (h : bytes.take size = []) :
    bytes = [] :=
  (List.take_eq_nil_iff.mp h).resolve_left (Nat.ne_of_gt hpos)

theorem chunkSize_pos {size : Nat} : 0 < max chunkSize size :=
  Nat.lt_of_lt_of_le (by decide) (Nat.le_max_left _ _)

theorem exists_takes (h : r.takeChunk wanted = .ok r') :
    ∃ chunk taken cs front, r.Takes r' chunk taken cs front := by
  rw [takeChunk] at h
  generalize hsize : max chunkSize _ = size at h
  have hpos : 0 < size := hsize ▸ chunkSize_pos
  obtain ⟨⟨cs, cut⟩, hdecoded, rfl⟩ := exists_of_map h
  obtain ⟨taken, hcut, hdecodes, hlastCut⟩ := exists_taken hdecoded
  obtain ⟨front, hfront, hchars, hlast, hbetween⟩ :=
    unifyChunk_spec r.afterReturn (r.bytes.take size).isEmpty cs
  have hsplit := List.take_append_drop size r.bytes
  refine ⟨r.bytes.take size, taken, cs, front, hsplit.symm, hcut, hdecodes, hchars,
    congrArg (r.ready ++ ·) hfront, congrArg (_ && ·.isEmpty) hfront, fun hnil => ⟨?_, ?_⟩,
    fun hback hreturn => ?_⟩
  · rw [hlastCut hnil, eq_nil_of_take hpos hnil]
    exact List.drop_nil
  · exact hlast (List.isEmpty_iff.mpr hnil)
  · exact List.isEmpty_iff.mp (hbetween hback hreturn)

theorem eq_nil_of_decodes (h : Decodes [] cs) : cs = [] :=
  List.eq_nil_of_length_eq_zero (Nat.le_zero.mp (length_le_of_decodes h))

theorem Takes.front_eq_nil (h : r.Takes r' chunk taken cs front) (hnil : r.cut ++ r.bytes = [])
    (hback : r.afterReturn = false) : front = [] ∧ r'.cut ++ r'.bytes = [] := by
  have hall : taken ++ (r'.cut ++ r'.bytes) = [] := by
    rw [← hnil, h.bytes, ← List.append_assoc, ← List.append_assoc, ← h.cut]
  obtain ⟨htaken, hrest⟩ := List.append_eq_nil_iff.mp hall
  have hdecodes := h.decodes
  have hchars := h.chars
  rw [htaken] at hdecodes
  rw [eq_nil_of_decodes hdecodes, held, hback] at hchars
  exact ⟨(List.append_eq_nil_iff.mp hchars.symm).1, hrest⟩

structure Reads (whole : List UInt8) (given : List Char) (taken : List UInt8) (body : List Char)
    (r : Intake) : Prop where
  bytes : whole = taken ++ (r.cut ++ r.bytes)
  decodes : Decodes taken (body ++ r.held)
  text : given ++ r.ready = unifyBreaks body
  between : r.afterReturn = false → body.getLast? = some '\r' → r.cut ++ r.bytes = []
  atEnd : r.atEnd = true → r.cut ++ r.bytes = [] ∧ r.afterReturn = false

theorem Reads.takes (h : Reads whole given taken body r) (ht : r.Takes r' chunk more cs front) :
    Reads whole given (taken ++ more) (body ++ front) r' := by
  have hjoin : body.getLast? = some '\r' → front.head? ≠ some '\n' := by
    intro hreturn
    cases hback : r.afterReturn with
    | true =>
      have hchars := ht.chars
      rw [held, hback] at hchars
      cases front with
      | nil => exact nofun
      | cons c rest =>
        obtain rfl := (List.cons.inj hchars).1
        simp
    | false =>
      rw [(ht.front_eq_nil (h.between hback hreturn) hback).1]
      exact nofun
  constructor
  case bytes =>
    rw [h.bytes, ht.bytes, ← List.append_assoc r.cut, ht.cut]
    simp only [List.append_assoc]
  case decodes =>
    rw [List.append_assoc, ← ht.chars]
    exact (decodes_append_iff h.decodes).mpr ⟨cs, ht.decodes, by simp only [List.append_assoc]⟩
  case text =>
    rw [ht.ready, ← List.append_assoc, h.text, unifyBreaks_append hjoin]
  case between =>
    intro hback hreturn
    rcases List.eq_nil_or_concat front with rfl | ⟨init, c, rfl⟩
    · have hchars := ht.chars
      rw [held, held, hback] at hchars
      have hheld := (List.append_eq_nil_iff.mp hchars).1
      cases hback' : r.afterReturn with
      | true =>
        rw [hback'] at hheld
        cases hheld
      | false =>
        rw [List.append_nil] at hreturn
        exact (ht.front_eq_nil (h.between hback' hreturn) hback').2
    · refine (ht.last (ht.between hback ?_)).1
      simpa using hreturn
  case atEnd =>
    intro hend
    rw [ht.atEnd, Bool.and_eq_true, List.isEmpty_iff] at hend
    exact ht.last hend.1

theorem exists_takeChunk (h : Reads whole given taken body r) (hwhole : Decodes whole cs) (wanted : Nat) :
    ∃ r', r.takeChunk wanted = .ok r' := by
  rw [h.bytes] at hwhole
  obtain ⟨rest, hrest, -⟩ := (decodes_append_iff h.decodes).mp hwhole
  rw [takeChunk]
  generalize hsize : max chunkSize _ = size
  have hpos : 0 < size := hsize ▸ chunkSize_pos
  rw [exists_map_iff]
  by_cases hchunk : (r.bytes.take size).isEmpty = true
  · rw [eq_nil_of_take hpos (List.isEmpty_iff.mp hchunk), List.append_nil] at hrest
    have hdecode : decode r.cut = .ok (String.ofList rest) := by
      rwa [decode_eq_ok_iff, String.toList_ofList]
    rw [if_pos hchunk, hdecode]
    exact ⟨_, rfl⟩
  · rw [if_neg hchunk]
    rw [← List.take_append_drop size r.bytes, ← List.append_assoc] at hrest
    obtain ⟨as, cut, hopen⟩ := exists_decodeOpen hrest
    rw [hopen]
    exact ⟨_, rfl⟩

def left (r : Intake) : Nat :=
  if r.atEnd then 0 else r.bytes.length + if r.cut ++ r.bytes = [] ∧ r.afterReturn = false then 1 else 2

theorem atEnd_of_left (h : r.left = 0) : r.atEnd = true := by
  cases hend : r.atEnd with
  | true => rfl
  | false =>
    rw [left, hend, if_neg Bool.false_ne_true] at h
    split at h <;> omega

def size (r : Intake) : Nat :=
  r.ready.length + r.held.length + (r.cut ++ r.bytes).length

theorem left_le (r : Intake) : r.left ≤ r.bytes.length + 3 := by
  unfold left
  split
  · omega
  · split <;> omega

theorem Takes.size_le (h : r.Takes r' chunk taken cs front) : r'.size ≤ r.size := by
  have hunify := length_unifyBreaks_le front
  have hdecoded := length_le_of_decodes h.decodes
  have hchars := congrArg List.length h.chars
  have hcut := congrArg List.length h.cut
  have hbytes := congrArg List.length h.bytes
  have hready := congrArg List.length h.ready
  simp only [List.length_append] at hchars hcut hbytes hready
  simp only [size, List.length_append]
  omega

theorem Takes.left_lt (h : r.Takes r' chunk taken cs front) (hend : r.atEnd = false) : r'.left < r.left := by
  have hbytes := congrArg List.length h.bytes
  rw [List.length_append] at hbytes
  unfold left
  rw [hend, if_neg Bool.false_ne_true]
  by_cases hchunk : chunk = []
  · have hclean' := h.last hchunk
    have hlength : r'.bytes.length = 0 :=
      List.length_eq_zero_iff.mpr (List.append_eq_nil_iff.mp hclean'.1).2
    rw [if_pos hclean']
    by_cases hclean : r.cut ++ r.bytes = [] ∧ r.afterReturn = false
    · have hend' : r'.atEnd = true := by
        rw [h.atEnd, (h.front_eq_nil hclean.1 hclean.2).1, hchunk]
        rfl
      rw [hend', if_pos rfl, if_pos hclean]
      exact Nat.succ_pos _
    · rw [if_neg hclean]
      split <;> omega
  · have hpos := List.length_pos_iff.mpr hchunk
    have hdirty : ¬(r.cut ++ r.bytes = [] ∧ r.afterReturn = false) := by
      rintro ⟨hnil, -⟩
      rw [(List.append_eq_nil_iff.mp hnil).2, List.length_nil] at hbytes
      omega
    rw [if_neg hdirty]
    split
    · omega
    · split <;> omega

theorem Reads.fill (h : Reads whole given taken body r) (hr : r.fill n = .ok r') :
    (∃ taken body, Reads whole given taken body r') ∧ r'.size ≤ r.size ∧
      (r.left ≤ n → r'.atEnd = true ∨ pieceSize ≤ r'.ready.length) := by
  induction n generalizing r taken body with
  | zero =>
    obtain rfl := Except.ok.inj hr
    exact ⟨⟨taken, body, h⟩, Nat.le_refl _, fun hleft => .inl (atEnd_of_left (Nat.le_zero.mp hleft))⟩
  | succ n ih =>
    rw [Intake.fill] at hr
    by_cases hstop : (r.atEnd || decide (pieceSize ≤ r.ready.length)) = true
    · rw [if_pos hstop] at hr
      obtain rfl := Except.ok.inj hr
      exact ⟨⟨taken, body, h⟩, Nat.le_refl _, fun _ => by simpa using hstop⟩
    · rw [if_neg hstop] at hr
      have hend : r.atEnd = false := by
        cases hend : r.atEnd with
        | true => exact absurd (by rw [hend]; rfl) hstop
        | false => rfl
      cases hchunk : r.takeChunk (pieceSize - r.ready.length) with
      | error f =>
        rw [hchunk] at hr
        cases hr
      | ok next =>
        rw [hchunk] at hr
        obtain ⟨chunk, more, cs, front, ht⟩ := exists_takes hchunk
        obtain ⟨hreads, hsize, hdone⟩ := ih (h.takes ht) hr
        have hleft := ht.left_lt hend
        exact ⟨hreads, Nat.le_trans hsize ht.size_le, fun hn => hdone (by omega)⟩

theorem exists_fill (h : Reads whole given taken body r) (hwhole : Decodes whole cs) (n : Nat) :
    ∃ r', r.fill n = .ok r' := by
  induction n generalizing r taken body with
  | zero => exact ⟨r, rfl⟩
  | succ n ih =>
    rw [Intake.fill]
    split
    · exact ⟨r, rfl⟩
    · obtain ⟨next, hchunk⟩ := exists_takeChunk h hwhole (pieceSize - r.ready.length)
      obtain ⟨chunk, more, cs, front, ht⟩ := exists_takes hchunk
      rw [hchunk]
      exact ih (h.takes ht)

theorem Reads.decodes_of_atEnd (h : Reads whole given taken body r) (hend : r.atEnd = true) :
    Decodes whole body := by
  obtain ⟨hnil, hback⟩ := h.atEnd hend
  have hbytes := h.bytes
  have hdecodes := h.decodes
  rw [hnil, List.append_nil] at hbytes
  rw [held, hback] at hdecodes
  rw [hbytes, ← List.append_nil body]
  exact hdecodes

theorem Reads.handOut (h : Reads whole given taken body r) :
    Reads whole (given ++ r.ready.take pieceSize) taken body { r with ready := r.ready.drop pieceSize } where
  bytes := h.bytes
  decodes := h.decodes
  text := by
    rw [← h.text, List.append_assoc]
    exact congrArg (given ++ ·) (List.take_append_drop pieceSize r.ready)
  between := h.between
  atEnd := h.atEnd

theorem size_handOut_lt (h : ¬r.ready.isEmpty = true) :
    size { r with ready := r.ready.drop pieceSize } < r.size := by
  have hpos : 0 < r.ready.length := List.length_pos_iff.mpr fun hnil => h (List.isEmpty_iff.mpr hnil)
  change (r.ready.drop pieceSize).length + r.held.length + (r.cut ++ r.bytes).length < _
  rw [List.length_drop, size, pieceSize]
  omega

/-- If nothing is found wrong, the pieces are the text of the file. -/
theorem Reads.pieces_eq {ps : List (List Char)} (h : Reads whole given taken body r) (hsize : r.size < n)
    (hp : pieces n r = (ps, none)) :
    ∃ cs, Decodes whole cs ∧ given ++ ps.flatten = unifyBreaks cs := by
  induction n generalizing r given taken body ps with
  | zero => exact absurd hsize (Nat.not_lt_zero _)
  | succ n ih =>
    rw [pieces] at hp
    cases hfill : r.fill (r.bytes.length + 3) with
    | error f =>
      rw [hfill] at hp
      cases hp
    | ok full =>
      rw [hfill] at hp
      obtain ⟨⟨taken, body, hfull⟩, hle, hdone⟩ := h.fill hfill
      dsimp only at hp
      split at hp
      · rename_i hready
        obtain rfl := congrArg Prod.fst hp
        have hnil := List.isEmpty_iff.mp hready
        have hend : full.atEnd = true := (hdone r.left_le).resolve_right (by simp [hnil, pieceSize])
        refine ⟨body, hfull.decodes_of_atEnd hend, ?_⟩
        rw [← hfull.text, hnil]
        rfl
      · rename_i hready
        have hlt := size_handOut_lt hready
        cases hmore : pieces n { full with ready := full.ready.drop pieceSize } with
        | mk more failure =>
          rw [hmore] at hp
          cases hp
          obtain ⟨cs, hdecodes, htext⟩ := ih hfull.handOut (by omega) hmore
          refine ⟨cs, hdecodes, ?_⟩
          rw [← htext, List.flatten_cons, List.append_assoc]

theorem Reads.pieces_snd (h : Reads whole given taken body r) (hwhole : Decodes whole cs) (n : Nat) :
    (pieces n r).2 = none := by
  induction n generalizing r given taken body with
  | zero => rfl
  | succ n ih =>
    obtain ⟨full, hfill⟩ := exists_fill h hwhole (r.bytes.length + 3)
    obtain ⟨⟨taken, body, hfull⟩, -, -⟩ := h.fill hfill
    rw [pieces, hfill]
    dsimp only
    split
    · rfl
    · exact ih hfull.handOut

theorem Reads.atEnd_of_short (h : Reads whole given taken body r) (hshort : r.size < pieceSize)
    (hfill : r.fill n = .ok r') (hleft : r.left ≤ n) :
    r'.atEnd = true ∧ r'.ready.length < pieceSize ∧ ∃ cs, Decodes whole cs := by
  obtain ⟨⟨taken, body, hfull⟩, hle, hdone⟩ := h.fill hfill
  have hready : r'.ready.length < pieceSize := by
    rw [size, size] at hle
    rw [size] at hshort
    omega
  have hend := (hdone hleft).resolve_right (Nat.not_le_of_lt hready)
  exact ⟨hend, hready, body, hfull.decodes_of_atEnd hend⟩

theorem Reads.pieces_fst (h : Reads whole given taken body r) (hshort : r.size < pieceSize) (n : Nat) :
    (pieces n r).1 = [] ∨ (∃ piece, (pieces n r).1 = [piece]) ∧ ∃ cs, Decodes whole cs := by
  cases n with
  | zero => exact .inl rfl
  | succ n =>
    rw [pieces]
    cases hfill : r.fill (r.bytes.length + 3) with
    | error f => exact .inl rfl
    | ok full =>
      obtain ⟨hend, hready, hdecodes⟩ := h.atEnd_of_short hshort hfill r.left_le
      dsimp only
      split
      · exact .inl rfl
      · refine .inr ⟨⟨full.ready.take pieceSize, congrArg (_ :: ·) ?_⟩, hdecodes⟩
        have hnil : full.ready.drop pieceSize = [] := List.drop_eq_nil_of_le (Nat.le_of_lt hready)
        rw [hnil]
        cases n with
        | zero => rfl
        | succ n => simp [pieces, Intake.fill, hend]

end Intake

namespace Stream
open Utf8 Intake
variable {bytes : List UInt8}

theorem reads_start (bytes : List UInt8) : Reads bytes [] [] [] { bytes } where
  bytes := rfl
  decodes := .nil
  text := rfl
  between := nofun
  atEnd := nofun

theorem size_start (bytes : List UInt8) : size { bytes } = bytes.length :=
  Nat.zero_add _

theorem pieces_of_decode {s : String} (h : decode bytes = .ok s) :
    ∃ ps, pieces bytes = (ps, none) ∧ ps.flatten = unifyBreaks s.toList := by
  have hdecodes := decode_eq_ok_iff.mp h
  have hfailure := (reads_start bytes).pieces_snd hdecodes (bytes.length + 2)
  cases hpieces : pieces bytes with
  | mk ps failure =>
    obtain rfl : failure = none := (congrArg Prod.snd hpieces).symm.trans hfailure
    have hsize : size { bytes } < bytes.length + 2 := by
      rw [size_start]
      omega
    obtain ⟨cs, hcs, htext⟩ := (reads_start bytes).pieces_eq hsize hpieces
    refine ⟨ps, rfl, ?_⟩
    rw [← Spells.eq hcs hdecodes, ← htext]
    rfl

theorem pieces_of_short {s : String} (h : decode bytes = .ok s) (hshort : bytes.length < pieceSize)
    (hs : unifyBreaks s.toList ≠ []) : pieces bytes = ([unifyBreaks s.toList], none) := by
  obtain ⟨ps, hpieces, htext⟩ := pieces_of_decode h
  have hfst := (reads_start bytes).pieces_fst (by rwa [size_start]) (bytes.length + 2)
  have hps : (Intake.pieces (bytes.length + 2) { bytes }).1 = ps := congrArg Prod.fst hpieces
  rw [hps] at hfst
  rcases hfst with rfl | ⟨⟨piece, rfl⟩, -⟩
  · exact absurd htext.symm hs
  · rw [hpieces, ← htext]
    simp

theorem pieces_of_undecodable (h : ∀ s, decode bytes ≠ .ok s) :
    ∃ ps f, pieces bytes = (ps, some f) ∧ (bytes.length < pieceSize → ps = []) := by
  have hundecodable : ∀ cs, ¬Decodes bytes cs := by
    intro cs hcs
    refine h (String.ofList cs) ?_
    rwa [decode_eq_ok_iff, String.toList_ofList]
  cases hpieces : pieces bytes with
  | mk ps failure =>
    cases failure with
    | none =>
      have hsize : size { bytes } < bytes.length + 2 := by
        rw [size_start]
        omega
      obtain ⟨cs, hcs, -⟩ := (reads_start bytes).pieces_eq hsize hpieces
      exact absurd hcs (hundecodable cs)
    | some f =>
      refine ⟨ps, f, rfl, fun hshort => ?_⟩
      have hfst := (reads_start bytes).pieces_fst (by rwa [size_start]) (bytes.length + 2)
      have hfirst := hfst.resolve_right fun hone => hone.2.elim hundecodable
      exact (congrArg Prod.fst hpieces).symm.trans hfirst

end Stream
end FlowAtlas.Text
