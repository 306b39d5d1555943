import FlowAtlas.Proofs.PlainPaths
import FlowAtlas.Watch.Relevance

/-! The patterns of a crawl's handler. They are made of the extensions that select a language, so they fit
the name of every file that can be read, in upper or lower case, and the unwanted patterns fit none. -/

namespace FlowAtlas

namespace Text

def isPlain (c : Char) : Bool :=
  c != '*' && c != '?' && c != '['

theorem Wildcard.read_of_plain {cs : List Char} (h : ∀ c ∈ cs, isPlain c = true) :
    read none cs = cs.map literal := by
  induction cs with
  | nil => rfl
  | cons c rest ih =>
    have hplain := h c (List.mem_cons_self ..)
    simp only [isPlain, Bool.and_eq_true, bne_iff_ne] at hplain
    obtain ⟨⟨hmany, hone⟩, hset⟩ := hplain
    have hrest := ih fun d hd => h d (List.mem_cons_of_mem _ hd)
    rw [read]
    simp [hmany, hone, hset, hrest]

theorem Wildcard.fits_literals {cs ds : List Char} :
    fits (cs.map literal) ds = true ↔ ds = cs := by
  induction cs generalizing ds with
  | nil => simp [fits]
  | cons c rest ih =>
    cases ds with
    | nil => simp [fits]
    | cons d ds =>
      simp only [List.map_cons, fits, fitsOne, Bool.and_eq_true, beq_iff_eq, ih, List.cons.injEq]
      exact and_congr_left' eq_comm

theorem fitsPattern_star {ending : String} (h : ∀ c ∈ ending.toList, isPlain c = true)
    (text : String) :
    fitsPattern ("*" ++ ending) text = true ↔ ending.toList <:+ text.toList := by
  have hread : Wildcard.ofString ("*" ++ ending) = .many :: ending.toList.map .literal := by
    have hcs : ("*" ++ ending).toList = '*' :: ending.toList := by simp
    rw [Wildcard.ofString, hcs, Wildcard.read, ← Wildcard.read_of_plain h]
    rfl
  rw [fitsPattern, hread, Wildcard.fits, Wildcard.anyTail_iff]
  constructor
  · rintro ⟨before, after, heq, hafter⟩
    rw [Wildcard.fits_literals.mp hafter] at heq
    exact ⟨before, heq.symm⟩
  · rintro ⟨before, heq⟩
    exact ⟨before, ending.toList, heq.symm, Wildcard.fits_literals.mpr rfl⟩

theorem lowerChar_of_ascii {c : Char} (h : c.toNat < 128) : lowerChar c = c.toLower := by
  have hletters : ∀ n < 128, lowerChar (Char.ofNat n) = (Char.ofNat n).toLower := by decide +kernel
  have hc := hletters c.toNat h
  rwa [Char.ofNat_toNat] at hc

theorem toNat_lt_of_toLower {c : Char} (h : c.toLower.toNat < 128) : c.toNat < 128 := by
  unfold Char.toLower at h
  split at h
  · rename_i hcapital
    have hle : c.toNat ≤ 90 := hcapital.2
    exact Nat.lt_of_le_of_lt hle (by decide)
  · exact h

theorem lower_of_ascii {c : Char} (h : c.toLower.toNat < 128) :
    c ≠ 'Σ' ∧ c ≠ 'İ' ∧ lowerChar c = c.toLower := by
  have hascii := toNat_lt_of_toLower h
  refine ⟨?_, ?_, lowerChar_of_ascii hascii⟩ <;>
  · rintro rfl
    exact absurd hascii (by decide)

theorem lowerFrom_of_ascii {cs : List Char} (h : ∀ c ∈ cs, c.toLower.toNat < 128)
    (before : List Char) : lowerFrom before cs = cs.map Char.toLower := by
  induction cs generalizing before with
  | nil => rfl
  | cons c rest ih =>
    obtain ⟨hsigma, hdotted, hlower⟩ := lower_of_ascii (h c (List.mem_cons_self ..))
    have hrest := ih (fun d hd => h d (List.mem_cons_of_mem _ hd)) (c :: before)
    rw [lowerFrom, if_neg hsigma, if_neg hdotted, hlower, hrest]
    rfl

theorem lowerFrom_append (before cs ds : List Char) :
    ∃ lowered, lowerFrom before (cs ++ ds) = lowered ++ lowerFrom (cs.reverse ++ before) ds := by
  induction cs generalizing before with
  | nil => exact ⟨[], rfl⟩
  | cons c rest ih =>
    obtain ⟨lowered, hlowered⟩ := ih (c :: before)
    rw [List.cons_append, lowerFrom, hlowered, List.reverse_cons, List.append_assoc]
    exact ⟨_, (List.append_assoc ..).symm⟩

theorem lower_endsWith {text ending : String} {before last : List Char}
    (htext : text.toList = before ++ last) (hlast : last.map Char.toLower = ending.toList)
    (hascii : ∀ c ∈ ending.toList, c.toNat < 128) : ending.toList <:+ (lower text).toList := by
  have hlowered : ∀ c ∈ last, c.toLower.toNat < 128 := fun c hc =>
    hascii _ (hlast ▸ List.mem_map_of_mem hc)
  obtain ⟨lowered, happend⟩ := lowerFrom_append [] before last
  rw [lowerFrom_of_ascii hlowered, hlast] at happend
  rw [lower, String.toList_ofList, htext, happend]
  exact List.suffix_append lowered _

theorem lower_eq_self {text : String} (h : ∀ c ∈ text.toList, c.toLower = c ∧ c.toNat < 128) :
    lower text = text := by
  have hascii : ∀ c ∈ text.toList, c.toLower.toNat < 128 := fun c hc => by
    obtain ⟨hsame, hlt⟩ := h c hc
    rwa [hsame]
  have hsame : text.toList.map Char.toLower = text.toList := by
    rw [List.map_congr_left fun c hc => (h c hc).1, List.map_id']
  rw [lower, lowerFrom_of_ascii hascii, hsame, String.ofList_toList]

end Text

theorem extensionOf_suffix (name : String) : (extensionOf name).toList <:+ name.toList := by
  have hsplit := List.prefix_iff_eq_append.mp
    (List.takeWhile_prefix (· != '.') (l := name.toList.reverse))
  unfold extensionOf
  dsimp only
  split
  · rename_i dot before rest _ hdrop
    rw [hdrop] at hsplit
    refine List.reverse_prefix.mp ⟨before :: rest, ?_⟩
    rw [String.toList_ofList, List.reverse_cons, List.reverse_reverse, List.append_assoc]
    exact hsplit
  · exact List.nil_suffix

theorem ending_of_languageOf? {name : String} {l : Language} (h : languageOf? name = some l) :
    ∃ ext ∈ Language.supportedExtensions, ∃ before last,
      name.toList = before ++ last ∧ last.map Char.toLower = ext.toList := by
  have hext : Text.lowerAscii (extensionOf name) ∈ l.extensions := by
    have hfound := List.find?_some h
    simpa using hfound
  obtain ⟨before, hname⟩ := extensionOf_suffix name
  refine ⟨_, List.mem_flatMap.mpr ⟨l, l.mem_all, hext⟩, before, _, hname.symm, ?_⟩
  rw [Text.lowerAscii, String.toList_ofList]

namespace Pattern

def isSimple (pattern : String) : Bool :=
  anchorAndRest (unifySlashes pattern) == ([], pattern.toList) &&
    (Text.splitOnChar '\\' pattern).filter Path.isPart == [pattern] &&
    pattern.toList.all fun c => c.toLower == c && decide (c.toNat < 128)

theorem lower_of_isSimple {pattern : String} (h : isSimple pattern = true) :
    Text.lower pattern = pattern := by
  simp only [isSimple, Bool.and_eq_true, List.all_eq_true, beq_iff_eq, decide_eq_true_eq] at h
  exact Text.lower_eq_self h.2

theorem partsOf_of_isSimple {pattern : String} (h : isSimple pattern = true) :
    partsOf pattern = [pattern] := by
  have hlower := lower_of_isSimple h
  simp only [isSimple, Bool.and_eq_true, beq_iff_eq] at h
  obtain ⟨⟨hanchor, hparts⟩, -⟩ := h
  simp [partsOf, hanchor, hparts, hlower]

theorem fits_of_isSimple {pattern path part : String} (h : isSimple pattern = true)
    (hpath : (partsOf path).getLast? = some part) :
    fits pattern path = Text.fitsPattern pattern part := by
  obtain ⟨before, hparts⟩ := List.getLast?_eq_some_iff.mp hpath
  simp [fits, partsOf_of_isSimple h, hparts, fitsEach]

end Pattern

theorem Language.supportedExtensions_facts : ∀ ext ∈ supportedExtensions,
    Pattern.isSimple ("*" ++ ext) = true ∧
      (∀ c ∈ ext.toList, Text.isPlain c = true ∧ c.toNat < 128 ∧ c ≠ '/' ∧ c ≠ '\\') ∧
      2 ≤ ext.toList.length ∧ ∀ c ∈ ext.toList.getLast?, c ≠ '~' ∧ c ≠ 'p' := by
  -- As a computation on lists, for whole types of characters are not to be searched.
  have hfacts : ∀ ext ∈ supportedExtensions, Pattern.isSimple ("*" ++ ext) = true ∧
      (ext.toList.all fun c => Text.isPlain c && c.toNat < 128 && c != '/' && c != '\\') = true ∧
      2 ≤ ext.toList.length ∧ (ext.toList.getLast?.all fun c => c != '~' && c != 'p') = true := by
    decide +kernel
  intro ext hext
  obtain ⟨hsimple, hchars, hlength, hlast⟩ := hfacts ext hext
  refine ⟨hsimple, fun c hc => ?_, hlength, fun c hc => ?_⟩
  · simpa [and_assoc] using List.all_eq_true.mp hchars c hc
  · rw [Option.mem_def.mp hc] at hlast
    simpa using hlast

namespace Handler

theorem unwanted_facts : ∀ pattern ∈ unwanted, Pattern.isSimple pattern = true ∧
    pattern = "*" ++ Text.dropStart pattern 1 ∧
      (∀ c ∈ (Text.dropStart pattern 1).toList, Text.isPlain c = true) ∧
      ∃ c ∈ (Text.dropStart pattern 1).toList.getLast?, c = '~' ∨ c = 'p' := by
  have hfacts : ∀ pattern ∈ unwanted, Pattern.isSimple pattern = true ∧
      pattern = "*" ++ Text.dropStart pattern 1 ∧
      (Text.dropStart pattern 1).toList.all Text.isPlain = true ∧
      ((Text.dropStart pattern 1).toList.getLast?.any fun c => c == '~' || c == 'p') = true := by
    decide +kernel
  intro pattern hpattern
  obtain ⟨hsimple, hstar, hplain, hlast⟩ := hfacts pattern hpattern
  refine ⟨hsimple, hstar, List.all_eq_true.mp hplain, ?_⟩
  obtain ⟨c, hc, hcases⟩ := Option.any_eq_true _ _ |>.mp hlast
  exact ⟨c, hc, by simpa using hcases⟩

def fitsName (h : Handler) (name : String) : Bool :=
  (h.patterns.any fun pattern => Text.fitsPattern (Text.lower pattern) (Text.lower name)) &&
    !unwanted.any fun pattern => Text.fitsPattern pattern (Text.lower name)

end Handler

namespace Crawler
variable {c : Crawler} {root : Address} {channel : Nat} {name : String} {l : Language}

theorem mem_patterns_handler {pattern : String} : pattern ∈ (c.handler root channel).patterns ↔
    ∃ ext ∈ Language.supportedExtensions, "*" ++ ext = pattern := by
  simp [Handler.patterns, handler]

theorem conflicts_handler (c : Crawler) (root : Address) (channel : Nat) :
    (c.handler root channel).conflicts = [] := by
  have hdistinct : ∀ ext ∈ Language.supportedExtensions, "*" ++ ext ∉ Handler.unwanted := by
    decide +kernel
  refine List.filter_eq_nil_iff.mpr fun unwanted hunwanted hwanted => ?_
  obtain ⟨pattern, hpattern, hlower⟩ := List.mem_map.mp (List.contains_iff_mem.mp hwanted)
  obtain ⟨ext, hext, rfl⟩ := mem_patterns_handler.mp hpattern
  rw [Pattern.lower_of_isSimple (Language.supportedExtensions_facts ext hext).1] at hlower
  exact hdistinct ext hext (hlower ▸ hunwanted)

/-- A text that ends in an extension fits a pattern of the handler and no unwanted one: two endings of one
text have the same last character. -/
theorem fitsPattern_of_ending {ext text : String} (hext : ext ∈ Language.supportedExtensions)
    (htext : ext.toList <:+ text.toList) (c : Crawler) (root : Address) (channel : Nat) :
    (∃ pattern ∈ (c.handler root channel).patterns, Pattern.isSimple pattern = true ∧
        Text.fitsPattern pattern text = true) ∧
      ∀ pattern ∈ Handler.unwanted, Pattern.isSimple pattern = true ∧
        Text.fitsPattern pattern text = false := by
  obtain ⟨hsimple, hplain, hlength, hlast⟩ := Language.supportedExtensions_facts ext hext
  refine ⟨⟨"*" ++ ext, mem_patterns_handler.mpr ⟨ext, hext, rfl⟩, hsimple, ?_⟩, fun pattern hpattern => ?_⟩
  · exact (Text.fitsPattern_star (fun c hc => (hplain c hc).1) text).mpr htext
  obtain ⟨hsimple', hstar, hplain', c, hc, hcases⟩ := Handler.unwanted_facts pattern hpattern
  refine ⟨hsimple', ?_⟩
  rw [Bool.eq_false_iff, hstar, Ne, Text.fitsPattern_star hplain']
  intro hother
  have hlastOf : ∀ {ending : List Char}, ending <:+ text.toList → ending ≠ [] →
      ending.getLast? = text.toList.getLast? := by
    rintro ending ⟨before, hbefore⟩ hne
    rw [← hbefore, List.getLast?_append, List.getLast?_eq_some_getLast hne, Option.some_or]
  have hne : ext.toList ≠ [] := fun hnil => by
    rw [hnil] at hlength
    exact absurd hlength (by decide)
  have hne' : (Text.dropStart pattern 1).toList ≠ [] := fun hnil => by
    rw [hnil] at hc
    cases hc
  rw [hlastOf hother hne', ← hlastOf htext hne] at hc
  obtain ⟨htilde, hp⟩ := hlast c hc
  exact hcases.elim htilde hp

theorem fitsName_of_ending {ext : String} (hext : ext ∈ Language.supportedExtensions)
    (h : ext.toList <:+ (Text.lower name).toList) (c : Crawler) (root : Address) (channel : Nat) :
    (c.handler root channel).fitsName name = true := by
  obtain ⟨⟨pattern, hpattern, hsimple, hfits⟩, hunwanted⟩ := fitsPattern_of_ending hext h c root channel
  rw [Handler.fitsName, Bool.and_eq_true, List.any_eq_true, Bool.not_eq_true', List.any_eq_false]
  refine ⟨⟨pattern, hpattern, ?_⟩, fun other hother => ?_⟩
  · rwa [Pattern.lower_of_isSimple hsimple]
  · rw [(hunwanted other hother).2]
    decide

theorem fitsName_handler (h : languageOf? name = some l) (c : Crawler) (root : Address)
    (channel : Nat) : (c.handler root channel).fitsName name = true := by
  obtain ⟨ext, hext, before, last, hname, hlast⟩ := ending_of_languageOf? h
  have hchars := (Language.supportedExtensions_facts ext hext).2.1
  have hending := Text.lower_endsWith hname hlast fun c hc => (hchars c hc).2.1
  exact fitsName_of_ending hext hending c root channel

end Crawler

namespace Pattern

theorem splitChars_append {p : Char → Bool} {last : List Char} (hlast : ∀ c ∈ last, p c = false)
    (cs : List Char) : ∃ pieces piece, Text.splitChars p (cs ++ last) = pieces ++ [piece ++ last] := by
  induction cs with
  | nil =>
    refine ⟨[], [], ?_⟩
    induction last with
    | nil => rfl
    | cons c rest ih =>
      have hrest := ih fun d hd => hlast d (List.mem_cons_of_mem _ hd)
      have hc := hlast c (List.mem_cons_self ..)
      simp only [List.nil_append] at hrest ⊢
      rw [Text.splitChars, hrest, hc]
      rfl
  | cons c rest ih =>
    obtain ⟨pieces, piece, hrest⟩ := ih
    rw [List.cons_append, Text.splitChars, hrest]
    cases p c with
    | true => exact ⟨[] :: pieces, piece, rfl⟩
    | false =>
      cases pieces with
      | nil => exact ⟨[], c :: piece, rfl⟩
      | cons first pieces => exact ⟨(c :: first) :: pieces, piece, rfl⟩

theorem anchorAndRest_slash {cs : List Char} (h : ∀ c ∈ cs.head?, c ≠ '\\') :
    anchorAndRest ('\\' :: cs) = (['\\'], cs) := by
  cases cs with
  | nil => decide
  | cons c cs =>
    have hc : c ≠ '\\' := h c rfl
    have hmark : markAndRest ('\\' :: c :: cs) = ([], '\\' :: c :: cs) := by
      unfold markAndRest
      split <;> simp_all
    have hshare : shareAndRest? ('\\' :: c :: cs) = none := by
      unfold shareAndRest?
      split <;> simp_all
    have hdrive : driveAndRest ('\\' :: c :: cs) = ([], '\\' :: c :: cs) := by
      unfold driveAndRest
      split
      · rename_i letter rest heq
        cases heq
        rfl
      · rfl
    simp [anchorAndRest, hmark, hshare, hdrive, hc]

/-- The last part of a path in lower case ends as the path does, if this ending is part of a name. A share
has another last part, so a second slash must not follow the first. -/
theorem getLast?_partsOf {path : String} {before last : List Char}
    (hpath : path.toList = '/' :: (before ++ last))
    (hfirst : ∀ c ∈ (before ++ last).head?, c ≠ '/' ∧ c ≠ '\\')
    (hlast : ∀ c ∈ last, c ≠ '/' ∧ c ≠ '\\') (hlength : 2 ≤ last.length) :
    ∃ piece, (partsOf path).getLast? = some (Text.lower (String.ofList (piece ++ last))) := by
  let unify : Char → Char := fun c => if c = '/' then '\\' else c
  have hsame : (before ++ last).map unify = before.map unify ++ last := by
    rw [List.map_append, List.map_congr_left fun c hc => if_neg (hlast c hc).1, List.map_id']
  have hunified : unifySlashes path = '\\' :: (before.map unify ++ last) := by
    rw [unifySlashes, hpath, ← hsame]
    rfl
  have hhead : ∀ c ∈ (before.map unify ++ last).head?, c ≠ '\\' := by
    intro c hc
    rw [← hsame, List.head?_map] at hc
    obtain ⟨d, hd, rfl⟩ := Option.map_eq_some_iff.mp hc
    obtain ⟨hslash, hbackslash⟩ := hfirst d hd
    rwa [show unify d = d from if_neg hslash]
  have hfree : ∀ c ∈ last, (c == '\\') = false := fun c hc => by simpa using (hlast c hc).2
  obtain ⟨pieces, piece, hsplit⟩ := splitChars_append hfree (before.map unify)
  have hpart : Path.isPart (String.ofList (piece ++ last)) = true := by
    have hlong : 2 ≤ (String.ofList (piece ++ last)).toList.length := by
      rw [String.toList_ofList, List.length_append]
      omega
    rw [Path.isPart, Bool.and_eq_true, bne_iff_ne, bne_iff_ne]
    constructor <;>
    · intro heq
      rw [heq] at hlong
      exact absurd hlong (by decide)
  have hnames : (Text.splitOnChar '\\' (String.ofList (before.map unify ++ last))).filter Path.isPart =
      (pieces.map String.ofList).filter Path.isPart ++ [String.ofList (piece ++ last)] := by
    rw [Text.splitOnChar, String.toList_ofList, hsplit, List.map_append, List.filter_append]
    simp only [List.map_cons, List.map_nil, List.filter_cons_of_pos hpart, List.filter_nil]
  refine ⟨piece, ?_⟩
  rw [partsOf, hunified, anchorAndRest_slash hhead]
  simp only [hnames, List.isEmpty_cons, Bool.false_eq_true, if_false]
  rw [← List.cons_append, List.map_append, List.map_singleton, List.getLast?_concat]

end Pattern

theorem Crawler.wants_handler {name path : String} {l : Language} (h : languageOf? name = some l)
    {cs : List Char} (hpath : path.toList = '/' :: cs) (hname : name.toList <:+ cs)
    (hfirst : ∀ c ∈ cs.head?, c ≠ '/' ∧ c ≠ '\\') (c : Crawler) (root : Address) (channel : Nat) :
    (c.handler root channel).wants path = true := by
  obtain ⟨ext, hext, front, last, hsplit, hlast⟩ := ending_of_languageOf? h
  obtain ⟨-, hchars, hlength, -⟩ := Language.supportedExtensions_facts ext hext
  obtain ⟨above, rfl⟩ := hname
  have hcs : above ++ name.toList = (above ++ front) ++ last := by rw [hsplit, List.append_assoc]
  rw [hcs] at hpath hfirst
  -- No slash becomes another character in lower case.
  have hnames : ∀ c ∈ last, c ≠ '/' ∧ c ≠ '\\' := by
    intro c hc
    have hlower := (hchars c.toLower (hlast ▸ List.mem_map_of_mem hc)).2.2
    constructor <;>
    · rintro rfl
      revert hlower
      decide
  have hlength' : 2 ≤ last.length := by
    rwa [← hlast, List.length_map] at hlength
  obtain ⟨piece, hpiece⟩ := Pattern.getLast?_partsOf hpath hfirst hnames hlength'
  have hending := Text.lower_endsWith (String.toList_ofList (l := piece ++ last)) hlast
    fun c hc => (hchars c hc).2.1
  obtain ⟨⟨pattern, hpattern, hsimple, hfits⟩, hunwanted⟩ :=
    fitsPattern_of_ending hext hending c root channel
  rw [Handler.wants, Bool.and_eq_true, List.any_eq_true, Bool.not_eq_true', List.any_eq_false]
  refine ⟨⟨pattern, hpattern, ?_⟩, fun other hother => ?_⟩
  · rwa [Pattern.fits_of_isSimple hsimple hpiece]
  · obtain ⟨hsimple', hnot⟩ := hunwanted other hother
    rw [Pattern.fits_of_isSimple hsimple' hpiece, hnot]
    decide

end FlowAtlas
