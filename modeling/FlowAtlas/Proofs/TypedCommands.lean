import FlowAtlas.Proofs.Trimming
import FlowAtlas.Request.Command

/-! Typed commands. Every path that does not itself read like the flag can be typed with or without the
flag, and a text makes no request exactly if it is no crawl command or names no path. -/

namespace FlowAtlas

namespace CrawlRequest
variable {s p w lead tail body : String}
open Text

def IsLead (s : String) : Prop :=
  isAllBlank s = true ∨
    ∃ before after, isAllBlank before = true ∧ isAllBlank after = true ∧ s = before ++ ":" ++ after

theorem pathAndFlag_of_plain (hflag : p ≠ flatFlag) (hend : endsWith p (" " ++ flatFlag) = false)
    (hstart : startsWith p (flatFlag ++ " ") = false) : pathAndFlag p = (p, false) := by
  rw [pathAndFlag, if_neg hflag, hend, hstart]
  rfl

theorem length_space : " ".length = 1 := rfl

theorem ne_flag_of_longer (h : flatFlag.length < s.length) : s ≠ flatFlag :=
  ne_of_apply_ne String.length (Nat.ne_of_gt h)

theorem pathAndFlag_append_flag (rest : String) :
    pathAndFlag (rest ++ (" " ++ flatFlag)) = (trim rest, true) := by
  have hends : endsWith (rest ++ (" " ++ flatFlag)) (" " ++ flatFlag) = true :=
    endsWith_iff.mpr ⟨rest, rfl⟩
  have hne : rest ++ (" " ++ flatFlag) ≠ flatFlag :=
    ne_flag_of_longer (by simp only [String.length_append, length_space]; omega)
  rw [pathAndFlag, if_neg hne, if_pos hends, dropEnd_append]

theorem pathAndFlag_flag_append {rest : String}
    (hend : endsWith (flatFlag ++ " " ++ rest) (" " ++ flatFlag) = false) :
    pathAndFlag (flatFlag ++ " " ++ rest) = (trim rest, true) := by
  have hstarts : startsWith (flatFlag ++ " " ++ rest) (flatFlag ++ " ") = true :=
    startsWith_iff.mpr ⟨rest, rfl⟩
  have hne : flatFlag ++ " " ++ rest ≠ flatFlag :=
    ne_flag_of_longer (by simp only [String.length_append, length_space]; omega)
  rw [pathAndFlag, if_neg hne, hend, if_pos hstarts, dropStart_append]
  rfl

theorem not_blank_of_mem_flag : ∀ c ∈ flatFlag.toList, isBlank c = false := by
  have hall : flatFlag.toList.all (!isBlank ·) = true := by decide
  simpa only [List.all_eq_true, Bool.not_eq_true'] using hall

/-- The flag before a path and blanks is no flag behind it: a tail of the flag follows no blank, and the
whole flag is no path. -/
theorem not_endsWith_flag (hflag : p ≠ flatFlag) (hend : endsWith p (" " ++ flatFlag) = false)
    (hw : isAllBlank w = true) : endsWith (flatFlag ++ " " ++ (w ++ p)) (" " ++ flatFlag) = false := by
  apply Bool.eq_false_iff.mpr
  intro hends
  obtain ⟨rest, hrest⟩ := endsWith_iff.mp hends
  have hlists : (flatFlag.toList ++ (" " ++ w).toList) ++ p.toList =
      rest.toList ++ (" " ++ flatFlag).toList := by
    simpa only [String.toList_append, List.append_assoc] using congrArg String.toList hrest
  have hlonger : ∀ before, p.toList ≠ before ++ (" " ++ flatFlag).toList := by
    intro before hbefore
    have hpath : p = String.ofList before ++ (" " ++ flatFlag) := by
      apply String.toList_inj.mp
      rw [String.toList_append, String.toList_ofList, hbefore]
    rw [endsWith_iff.mpr ⟨_, hpath⟩] at hend
    cases hend
  rcases List.append_eq_append_iff.mp hlists with ⟨before, -, hpath⟩ | ⟨cut, hblanks, hcut⟩
  · exact hlonger before hpath
  · rcases cut with _ | ⟨first, cut⟩
    · exact hlonger [] hcut.symm
    · have hpieces : flatFlag.toList = cut ++ p.toList := (List.cons.inj hcut).2
      rcases cut.eq_nil_or_concat with rfl | ⟨front, c, rfl⟩
      · exact hflag (String.toList_inj.mp hpieces.symm)
      · -- The path is a tail of the flag, so the character before it is a part of the flag and blank at once.
        have hmember : c ∈ flatFlag.toList := by rw [hpieces]; simp
        have hlast : c ∈ (flatFlag.toList ++ (" " ++ w).toList).getLast? := by
          rw [hblanks, List.concat_eq_append, ← List.cons_append, ← List.append_assoc,
            List.getLast?_concat]
          rfl
        have hblank : c ∈ (" " ++ w).toList := by
          rw [List.getLast?_append_of_ne_nil _ (by simp)] at hlast
          exact List.mem_of_getLast? hlast
        have hall : isAllBlank (" " ++ w) = true := isAllBlank_append.mpr ⟨rfl, hw⟩
        have hnot := not_blank_of_mem_flag c hmember
        rw [List.all_eq_true.mp hall c hblank] at hnot
        cases hnot

theorem root_pathAndFlag (hs : trim s = s) (hne : s ≠ "") :
    trim (pathAndFlag s).1 = (pathAndFlag s).1 ∧ ((pathAndFlag s).1 = "" ↔ s = flatFlag) := by
  by_cases hflag : s = flatFlag
  · subst hflag
    exact ⟨rfl, iff_of_true rfl rfl⟩
  by_cases hends : endsWith s (" " ++ flatFlag) = true
  · obtain ⟨rest, rfl⟩ := endsWith_iff.mp hends
    rw [pathAndFlag_append_flag]
    refine ⟨trim_trim rest, iff_of_false (fun hempty => ?_) hflag⟩
    rw [← String.append_assoc] at hs
    have hblank := isAllBlank_append.mpr ⟨isAllBlank_of_trim hempty, (rfl : isAllBlank " " = true)⟩
    exact absurd (congrArg String.length (eq_empty_of_leading hs hblank)) (by simp)
  by_cases hstarts : startsWith s (flatFlag ++ " ") = true
  · obtain ⟨rest, rfl⟩ := startsWith_iff.mp hstarts
    rw [pathAndFlag_flag_append (Bool.eq_false_iff.mpr hends)]
    refine ⟨trim_trim rest, iff_of_false (fun hempty => ?_) hflag⟩
    rw [String.append_assoc] at hs
    have hblank := isAllBlank_append.mpr ⟨(rfl : isAllBlank " " = true), isAllBlank_of_trim hempty⟩
    exact absurd (congrArg String.length (eq_empty_of_trailing (trimmed_of_trim_eq hs).last hblank)) (by simp)
  · rw [pathAndFlag_of_plain hflag (Bool.eq_false_iff.mpr hends) (Bool.eq_false_iff.mpr hstarts)]
    exact ⟨hs, iff_of_false hne hflag⟩

theorem last_commandText (s : String) : ∀ c ∈ (commandText s).toList.getLast?, isBlank c = false := by
  have htrim := (trimmed_of_trim_eq (trim_trim s)).last
  unfold commandText
  dsimp only
  split
  · intro c hc
    apply htrim
    rw [trimStart, String.toList_ofList] at hc
    have hsuffix : trimLeft (dropStart (trim s) 1).toList <:+ (trim s).toList := by
      rw [dropStart, String.toList_ofList]
      exact (List.dropWhile_suffix isBlank).trans (List.drop_suffix 1 _)
    obtain ⟨before, hbefore⟩ := hsuffix
    rw [← hbefore]
    exact List.mem_getLast?_append_of_mem_getLast? hc
  · exact htrim

theorem commandText_of_lead (hlead : IsLead lead) (htail : isAllBlank tail = true) (hs : trim s = s)
    (hne : s ≠ "") (hcolon : startsWith s ":" = false) : commandText (lead ++ s ++ tail) = s := by
  rcases hlead with hlead | ⟨before, after, hbefore, hafter, rfl⟩
  · rw [commandText, trim_around hlead htail hs]
    simp [hcolon]
  · have hcolonTrimmed : trim (":" ++ after ++ s) = ":" ++ after ++ s :=
      trim_between rfl (by decide) hs hne after
    rw [String.append_assoc] at hcolonTrimmed
    have hstarts : startsWith (":" ++ (after ++ s)) ":" = true := startsWith_iff.mpr ⟨_, rfl⟩
    have hleft : trimStart (after ++ s) = s := by
      rw [trimStart, String.toList_append, trimLeft_append (List.all_eq_true.mp hafter),
        trimLeft_eq_self (trimmed_of_trim_eq hs).head, String.ofList_toList]
    have htext : before ++ ":" ++ after ++ s ++ tail = before ++ (":" ++ (after ++ s)) ++ tail := by
      simp only [String.append_assoc]
    rw [commandText, htext, trim_around hbefore htail hcolonTrimmed]
    simp only [hstarts, if_true]
    exact (congrArg trimStart (dropStart_append ":" (after ++ s))).trans hleft

theorem ofCommand?_of_word {rest : String} (h : commandText s = commandWord ++ " " ++ rest) :
    ofCommand? s = if (pathAndFlag (trim (" " ++ rest))).1 = "" then none
      else some ⟨(pathAndFlag (trim (" " ++ rest))).1, (pathAndFlag (trim (" " ++ rest))).2⟩ := by
  have hstarts : startsWith (commandWord ++ " " ++ rest) (commandWord ++ " ") = true :=
    startsWith_iff.mpr ⟨rest, rfl⟩
  have hdrop : dropStart (commandWord ++ " " ++ rest) commandWord.length = " " ++ rest := by
    rw [String.append_assoc, dropStart_append]
  unfold ofCommand?
  simp only [h, hstarts, or_true, if_true, hdrop]

theorem trim_rest_ne {rest : String} (h : commandText s = commandWord ++ " " ++ rest) :
    trim (" " ++ rest) ≠ "" := by
  intro hempty
  have hlast := last_commandText s
  rw [h, String.append_assoc] at hlast
  exact absurd (congrArg String.length (eq_empty_of_trailing hlast (isAllBlank_of_trim hempty))) (by simp)

theorem ofCommand?_of_lead (hlead : IsLead lead) (hw : isAllBlank w = true) (htail : isAllBlank tail = true)
    (hbody : trim body = body) (hne : (pathAndFlag body).1 ≠ "") :
    ofCommand? (lead ++ "crawl " ++ w ++ body ++ tail) =
      some ⟨(pathAndFlag body).1, (pathAndFlag body).2⟩ := by
  have hbodyNe : body ≠ "" := by
    rintro rfl
    exact hne rfl
  have hword : trim (commandWord ++ (" " ++ w) ++ body) = commandWord ++ (" " ++ w) ++ body :=
    trim_between rfl (by decide) hbody hbodyNe _
  have hwordNe : commandWord ++ (" " ++ w) ++ body ≠ "" := by
    intro h
    exact absurd (congrArg String.length h) (by simp)
  have hcolon : startsWith (commandWord ++ (" " ++ w) ++ body) ":" = false := by
    rw [startsWith, String.append_assoc, String.toList_append]
    rfl
  have hcommand : commandText (lead ++ (commandWord ++ (" " ++ w) ++ body) ++ tail) =
      commandWord ++ " " ++ (w ++ body) := by
    rw [commandText_of_lead hlead htail hword hwordNe hcolon]
    simp only [String.append_assoc]
  have htrim : trim (" " ++ (w ++ body)) = body := by
    have hblank : isAllBlank (" " ++ w) = true := isAllBlank_append.mpr ⟨rfl, hw⟩
    simpa only [String.append_assoc, String.append_empty] using trim_around hblank (b := "") rfl hbody
  have htext : lead ++ "crawl " ++ w ++ body ++ tail =
      lead ++ (commandWord ++ (" " ++ w) ++ body) ++ tail := by
    rw [show "crawl " = commandWord ++ " " from rfl]
    simp only [String.append_assoc]
  rw [htext, ofCommand?_of_word hcommand, htrim, if_neg hne]

/-- A path that can be typed as it is: it is not blank at its ends and does not read like the flag. -/
structure Typeable (p : String) : Prop where
  trimmed : trim p = p
  nonempty : p ≠ ""
  not_flag : p ≠ "--no-flow"
  not_before : startsWith p "--no-flow " = false
  not_after : endsWith p " --no-flow" = false

theorem Typeable.pathAndFlag_eq (hp : Typeable p) : pathAndFlag p = (p, false) :=
  pathAndFlag_of_plain hp.not_flag hp.not_after hp.not_before

theorem Typeable.flag_behind (hp : Typeable p) (hw : isAllBlank w = true) :
    trim (p ++ w ++ " --no-flow") = p ++ w ++ " --no-flow" ∧
      pathAndFlag (p ++ w ++ " --no-flow") = (p, true) := by
  constructor
  · have hbetween := trim_between hp.trimmed hp.nonempty (t := flatFlag) rfl (by decide) (w ++ " ")
    rwa [← String.append_assoc, String.append_assoc] at hbetween
  · have htrim : trim (p ++ w) = p := by
      simpa only [String.empty_append] using trim_around (a := "") rfl hw hp.trimmed
    exact (pathAndFlag_append_flag (p ++ w)).trans (by rw [htrim])

theorem Typeable.flag_in_front (hp : Typeable p) (hw : isAllBlank w = true) :
    trim ("--no-flow " ++ w ++ p) = "--no-flow " ++ w ++ p ∧
      pathAndFlag ("--no-flow " ++ w ++ p) = (p, true) := by
  constructor
  · have hbetween := trim_between (s := flatFlag) rfl (by decide) hp.trimmed hp.nonempty (" " ++ w)
    rwa [← String.append_assoc] at hbetween
  · have htrim : trim (w ++ p) = p := by
      simpa only [String.append_empty] using trim_around hw (b := "") rfl hp.trimmed
    have hnot := not_endsWith_flag hp.not_flag hp.not_after hw
    rw [String.append_assoc]
    exact (pathAndFlag_flag_append hnot).trans (by rw [htrim])

theorem ofCommand?_of_not_word (h : startsWith (commandText s) "crawl " = false) : ofCommand? s = none := by
  by_cases hword : commandText s = commandWord
  · rw [ofCommand?, hword]
    rfl
  · have hnot : startsWith (commandText s) (commandWord ++ " ") ≠ true := Bool.eq_false_iff.mp h
    rw [ofCommand?, if_neg (not_or.mpr ⟨hword, hnot⟩)]

theorem ofCommand?_eq_none_iff (s : String) :
    ofCommand? s = none ↔ startsWith (commandText s) "crawl " = false ∨
      trim (dropStart (commandText s) "crawl ".length) = "--no-flow" := by
  cases hstarts : startsWith (commandText s) "crawl " with
  | false => exact iff_of_true (ofCommand?_of_not_word hstarts) (.inl rfl)
  | true =>
    obtain ⟨rest, hrest⟩ := startsWith_iff.mp hstarts
    have htrim : trim (" " ++ rest) = trim rest := by
      rw [trim, String.toList_append, trimChars, trimLeft_append (List.all_eq_true.mp rfl)]
      rfl
    have hdrop : dropStart (commandText s) "crawl ".length = rest := by rw [hrest, dropStart_append]
    have hroot := (root_pathAndFlag (trim_trim (" " ++ rest)) (trim_rest_ne hrest)).2
    rw [ofCommand?_of_word hrest, hdrop, ← htrim]
    split
    · exact iff_of_true rfl (.inr (hroot.mp ‹_›))
    · exact iff_of_false (Option.some_ne_none _)
        (not_or.mpr ⟨Bool.false_ne_true.symm, fun h => ‹¬_› (hroot.mpr h)⟩)

theorem root_of_ofCommand? {r : CrawlRequest} (h : ofCommand? s = some r) :
    r.root ≠ "" ∧ trim r.root = r.root := by
  cases hstarts : startsWith (commandText s) "crawl " with
  | false => cases (ofCommand?_of_not_word hstarts).symm.trans h
  | true =>
    obtain ⟨rest, hrest⟩ := startsWith_iff.mp hstarts
    have hroot := (root_pathAndFlag (trim_trim (" " ++ rest)) (trim_rest_ne hrest)).1
    rw [ofCommand?_of_word hrest] at h
    generalize pathAndFlag (trim (" " ++ rest)) = found at h hroot
    split at h
    · cases h
    · cases h
      exact ⟨‹_›, hroot⟩

/-- With blanks and a colon in front and blanks behind, a path can be typed alone, with the flag behind it and
with the flag in front. A text makes no request exactly if it does not begin with the command word and a
blank or names nothing but the flag, and the path of a request is trimmed and not empty. -/
theorem typed_command_exact :
    (∀ lead p w w' tail, IsLead lead → Typeable p → isAllBlank w = true → isAllBlank w' = true →
      isAllBlank tail = true →
        ofCommand? (lead ++ "crawl " ++ w ++ p ++ tail) = some ⟨p, false⟩ ∧
        ofCommand? (lead ++ "crawl " ++ w ++ (p ++ w' ++ " --no-flow") ++ tail) = some ⟨p, true⟩ ∧
        ofCommand? (lead ++ "crawl " ++ w ++ ("--no-flow " ++ w' ++ p) ++ tail) = some ⟨p, true⟩) ∧
      (∀ s, ofCommand? s = none ↔ startsWith (commandText s) "crawl " = false ∨
        trim (dropStart (commandText s) "crawl ".length) = "--no-flow") ∧
      ∀ s r, ofCommand? s = some r → r.root ≠ "" ∧ trim r.root = r.root := by
  refine ⟨fun lead p w w' tail hlead hp hw hw' htail => ?_, ofCommand?_eq_none_iff,
    fun s r => root_of_ofCommand?⟩
  have htyped : ∀ body flat, trim body = body → pathAndFlag body = (p, flat) →
      ofCommand? (lead ++ "crawl " ++ w ++ body ++ tail) = some ⟨p, flat⟩ := by
    intro body flat hbody hpath
    have hne : (pathAndFlag body).1 ≠ "" := by rw [hpath]; exact hp.nonempty
    rw [ofCommand?_of_lead hlead hw htail hbody hne, hpath]
  obtain ⟨hbehind, hbehindPath⟩ := hp.flag_behind hw'
  obtain ⟨hfront, hfrontPath⟩ := hp.flag_in_front hw'
  exact ⟨htyped p false hp.trimmed hp.pathAndFlag_eq, htyped _ true hbehind hbehindPath,
    htyped _ true hfront hfrontPath⟩

theorem typed_command_sample :
    (IsLead " : " ∧ Typeable "a --no-flow b" ∧
      ofCommand? (" : " ++ "crawl " ++ "\t" ++ "a --no-flow b" ++ "") = some ⟨"a --no-flow b", false⟩ ∧
      ofCommand? (" : " ++ "crawl " ++ "\t" ++ ("a --no-flow b" ++ "  " ++ " --no-flow") ++ "") =
        some ⟨"a --no-flow b", true⟩ ∧
      ofCommand? (" : " ++ "crawl " ++ "\t" ++ ("--no-flow " ++ "  " ++ "a --no-flow b") ++ "") =
        some ⟨"a --no-flow b", true⟩) ∧
      ofCommand? "crawl --no-flow --no-flow" = some ⟨"--no-flow", true⟩ ∧
      "--no-flow" ≠ "" ∧ trim "--no-flow" = "--no-flow" := by
  have hlead : IsLead " : " := .inr ⟨" ", " ", rfl, rfl, rfl⟩
  have hpath : Typeable "a --no-flow b" := ⟨by decide, by decide, by decide, by decide, by decide⟩
  have hflag : ofCommand? "crawl --no-flow --no-flow" = some ⟨"--no-flow", true⟩ := by decide +kernel
  refine ⟨⟨hlead, hpath, ?_⟩, hflag, ?_⟩
  · exact typed_command_exact.1 " : " "a --no-flow b" "\t" "  " "" hlead hpath (by decide) (by decide) rfl
  · exact typed_command_exact.2.2 "crawl --no-flow --no-flow" ⟨"--no-flow", true⟩ hflag

end CrawlRequest
end FlowAtlas
