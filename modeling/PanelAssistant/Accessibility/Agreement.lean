import PanelAssistant.Accessibility.Basic

/-!
# One accessibility list

A text is `Readable` if it holds at most 64 different services in at most 4096 characters. Each of
the three programs refuses the texts that are not, and makes the same list of the others.
-/

namespace PanelAssistant.Accessibility

open Library Library.Text Library.Separated

/-! ## Services -/

/-- The characters of a service. -/
def isServiceChar (c : Char) : Bool := isPackageChar c || c == '$' || c == '/'

theorem isServiceChar_of_package {c : Char} (h : isPackageChar c = true) :
    isServiceChar c = true := by
  rw [isServiceChar, h]
  rfl

theorem isPackageChar_of_letter {c : Char} (h : (isLower c || isUpper c) = true) :
    isPackageChar c = true := by
  rw [isPackageChar, isAlnum, Bool.or_assoc (isDigit c), h]
  simp

theorem toNat_lt_of_isServiceChar {c : Char} (h : isServiceChar c = true) : c.toNat < 128 := by
  simp only [isServiceChar, isPackageChar, isAlnum, isDigit, isLower, isUpper, Bool.or_eq_true,
    Bool.and_eq_true, decide_eq_true_eq, beq_iff_eq, Char.le_def, UInt32.le_iff_toNat_le] at h
  rcases h with (((((⟨-, h⟩ | ⟨-, h⟩) | ⟨-, h⟩) | rfl) | rfl) | rfl) | rfl
  · exact lt_of_le_of_lt h (by decide)
  · exact lt_of_le_of_lt h (by decide)
  · exact lt_of_le_of_lt h (by decide)
  all_goals decide

theorem all_isServiceChar {service : List Char} (h : isServiceComponent service = true) :
    service ≠ [] ∧ service.all isServiceChar = true := by
  unfold isServiceComponent at h
  split at h
  · rename_i a package b cls hpackage hclass
    simp only [Bool.and_eq_true] at h
    obtain ⟨⟨⟨ha, hrest⟩, hb⟩, hcls⟩ := h
    have hmem : '/' ∈ service :=
      mem_of_afterFirst_ne_nil (by rw [hclass]; exact List.cons_ne_nil _ _)
    have htext := beforeFirst_append_afterFirst hmem
    rw [hpackage, hclass] at htext
    have hservice : (service.all isServiceChar) = true := by
      rw [← htext, List.all_eq_true]
      intro c hc
      rw [List.mem_append, List.mem_cons, List.mem_cons, List.mem_cons] at hc
      rcases hc with (rfl | hc) | rfl | rfl | hc
      · exact isServiceChar_of_package (isPackageChar_of_letter ha)
      · exact isServiceChar_of_package (List.all_eq_true.mp hrest c hc)
      · decide
      · rw [Bool.or_eq_true, beq_iff_eq] at hb
        rcases hb with hb | rfl
        · exact isServiceChar_of_package (isPackageChar_of_letter hb)
        · decide
      · have hc := List.all_eq_true.mp hcls c hc
        rw [isServiceChar, hc]
        rfl
    exact ⟨List.ne_nil_of_mem hmem, hservice⟩
  · cases h

theorem ne_nil_of_service {service : List Char} (h : isServiceComponent service = true) :
    service ≠ [] := (all_isServiceChar h).1

theorem not_mem_of_service {service : List Char} (h : isServiceComponent service = true) {c : Char}
    (hc : isServiceChar c = false) : c ∉ service := fun hmem => by
  rw [List.all_eq_true.mp (all_isServiceChar h).2 c hmem] at hc
  cases hc

theorem isServiceComponent_component (launchComponent : LaunchComponent) :
    isServiceComponent (component launchComponent) = true := by
  cases launchComponent <;> decide

theorem isServiceComponent_known {launchComponent : LaunchComponent} {name : List Char}
    (h : name ∈ known launchComponent) : isServiceComponent name = true := by
  have hall : ∀ name ∈ [oldService, shortService, newService], isServiceComponent name = true := by
    decide
  refine hall name ?_
  cases launchComponent with
  | oldClasses => exact List.mem_singleton.mp h ▸ List.mem_cons_self
  | newClasses => exact List.mem_cons_of_mem _ h

structure Readable (before : List Char) : Prop where
  length : before.length ≤ 4096
  count : (entries before).length ≤ 64
  nodup : (entries before).Nodup
  services : ∀ service ∈ entries before, isServiceComponent service = true

instance (before : List Char) : Decidable (Readable before) :=
  decidable_of_iff (before.length ≤ 4096 ∧ (entries before).length ≤ 64 ∧ (entries before).Nodup ∧
      ∀ service ∈ entries before, isServiceComponent service = true)
    ⟨fun ⟨hlength, hcount, hnodup, hservices⟩ => ⟨hlength, hcount, hnodup, hservices⟩,
      fun ⟨hlength, hcount, hnodup, hservices⟩ => ⟨hlength, hcount, hnodup, hservices⟩⟩

/-- What every program makes of a text. -/
def expected (before : List Char) (launchComponent : LaunchComponent) : Option (List Char) :=
  if Readable before then some (join (grantedEntries launchComponent (entries before))) else none

theorem expectedServices_eq (before : List Char) (launchComponent : LaunchComponent) :
    expectedServices before launchComponent = expected before launchComponent := by
  have hreadable : Readable before ↔ ¬(4096 < before.length ∨ 64 < (entries before).length ∨
      ¬(entries before).Nodup ∨ (entries before).all isServiceComponent = false) := by
    simp only [not_or, not_lt, not_not, Bool.not_eq_false, List.all_eq_true]
    exact ⟨fun h => ⟨h.length, h.count, h.nodup, h.services⟩,
      fun h => ⟨h.1, h.2.1, h.2.2.1, h.2.2.2⟩⟩
  have hknown : ((kept launchComponent (entries before)).any fun name =>
      decide (name ∈ known launchComponent)) = true ↔
        ∃ name ∈ kept launchComponent (entries before), name ∈ known launchComponent := by
    simp only [List.any_eq_true, decide_eq_true_eq]
  rw [expected, expectedServices]
  by_cases h : Readable before
  · rw [if_pos h, grantedEntries]
    rw [hreadable] at h
    simp only [← entries.eq_1, ← kept.eq_1, if_neg h, hknown]
    split <;> rfl
  · rw [if_neg h]
    rw [hreadable, not_not] at h
    exact if_pos h

/-- The length of an ASCII text in UTF-16. -/
theorem utf16Length_of_ascii {text : List Char} (h : ∀ c ∈ text, c.toNat < 128) :
    utf16Length text = text.length := by
  have hone : text.map (fun c => if c.toNat < 0x10000 then 1 else 2) = text.map fun _ => 1 :=
    List.map_congr_left fun c hc => if_pos (lt_trans (h c hc) (by decide))
  rw [utf16Length, hone, List.map_const', List.sum_replicate_nat, Nat.mul_one]

/-- A text of services is ASCII, without line breaks. -/
theorem chars_of_services {before : List Char}
    (h : ∀ service ∈ entries before, isServiceComponent service = true) :
    ∀ c ∈ before, c.toNat < 128 ∧ c ≠ '\n' := by
  have hclass : before.all (fun c => isServiceChar c || c == ':') = true := by
    by_cases hempty : before = [] ∨ before = "null".toList
    · rcases hempty with rfl | rfl
      · rfl
      · decide
    · rw [entries, if_neg hempty] at h
      refine (@all_splitOn (fun c => isServiceChar c || c == ':') ':' (by decide) _).mp
        fun service hservice => ?_
      have hall := (all_isServiceChar (h service hservice)).2
      rw [List.all_eq_true] at hall ⊢
      exact fun c hc => by rw [hall c hc]; rfl
  intro c hc
  have hc := List.all_eq_true.mp hclass c hc
  rw [Bool.or_eq_true, beq_iff_eq] at hc
  rcases hc with hc | rfl
  · refine ⟨toNat_lt_of_isServiceChar hc, ?_⟩
    rintro rfl
    exact absurd hc (by decide)
  · decide

theorem validateServices_eq (before : List Char) :
    validateServices before = if Readable before then some (entries before) else none := by
  have hany : (entries before).any (fun s => !isServiceComponent s) = true ↔
      ¬∀ service ∈ entries before, isServiceComponent service = true := by
    simp
  by_cases hall : ∀ service ∈ entries before, isServiceComponent service = true
  · have hlength : utf16Length before = before.length :=
      utf16Length_of_ascii fun c hc => (chars_of_services hall c hc).1
    rw [validateServices, hlength]
    split
    · rename_i hlong
      rw [if_neg fun h : Readable before => by have := h.length; omega]
    · rename_i hshort
      split
      · rename_i hempty
        have hentries : entries before = [] := if_pos hempty
        have hreadable : Readable before :=
          ⟨not_lt.mp
            hshort, by rw [hentries]; exact Nat.zero_le _, by rw [hentries]; exact List.nodup_nil,
            hall⟩
        rw [if_pos hreadable, hentries]
      · rename_i hempty
        have hentries : before.splitOn ':' = entries before := (if_neg hempty).symm
        have hbad : (64 < (entries before).length ∨ ¬(entries before).Nodup ∨
            (entries before).any (fun s => !isServiceComponent s) = true) ↔ ¬Readable before := by
          rw [hany, iff_false_intro (not_not.mpr hall), or_false]
          constructor
          · rintro (hbad | hbad) h
            · exact absurd h.count (not_le.mpr hbad)
            · exact hbad h.nodup
          · intro h
            by_contra hgood
            rw [not_or, not_lt, not_not] at hgood
            exact h ⟨not_lt.mp hshort, hgood.1, hgood.2, hall⟩
        simp only [hentries, hbad]
        by_cases h : Readable before
        · rw [if_neg (not_not.mpr h), if_pos h]
        · rw [if_pos h, if_neg h]
  · rw [if_neg fun h : Readable before => hall h.services, validateServices]
    split
    · rfl
    · split
      · rename_i hempty
        have hentries : entries before = [] := if_pos hempty
        rw [hentries] at hall
        exact absurd (fun _ h => by cases h) hall
      · rename_i hempty
        have hentries : before.splitOn ':' = entries before := (if_neg hempty).symm
        rw [hentries, if_pos (.inr (.inr (hany.mpr hall)))]

theorem browserExpectedServices_eq (before : List Char) (launchComponent : LaunchComponent) :
    browserExpectedServices before packageId launchComponent = expected before launchComponent := by
  have hkept : (entries before).filter
    (fun service => !(obsolete launchComponent).contains service) =
      kept launchComponent (entries before) := by
    refine List.filter_congr fun service _ => ?_
    rw [Bool.eq_iff_iff]
    simp
  have hknown : ((kept launchComponent (entries before)).any (known launchComponent).contains) =
    true ↔
      ∃ name ∈ kept launchComponent (entries before), name ∈ known launchComponent := by
    simp only [List.any_eq_true, List.contains_iff_mem]
  rw [browserExpectedServices, if_pos rfl, validateServices_eq, expected]
  split
  · simp only [Option.map_some, hkept, hknown, grantedEntries]
  · rfl

/-! ## The shell program -/

section

variable {launchComponent : LaunchComponent} {words : List (List Char)}

theorem join_eq_nil (h : ∀ word ∈ words, word ≠ []) : join words = [] ↔ words = [] := by
  constructor
  · intro hjoin
    cases words with
    | nil => rfl
    | cons word rest =>
      obtain ⟨c, cs, rfl⟩ := List.exists_cons_of_ne_nil (h word List.mem_cons_self)
      have hmem : c ∈ join ((c :: cs) :: rest) :=
        mem_intercalate List.mem_cons_self List.mem_cons_self
      rw [hjoin] at hmem
      cases hmem
  · rintro rfl
    rfl

/-- The text grows as its list does. -/
theorem extend_join (h : ∀ word ∈ words, word ≠ []) (service : List Char) :
    extend (join words) service = join (words ++ [service]) := by
  unfold extend
  split
  · rename_i hnil
    rw [(join_eq_nil h).mp hnil, List.nil_append, join, List.intercalate_singleton]
  · rename_i hne
    have hwords : words ≠ [] := fun hnil => hne ((join_eq_nil h).mpr hnil)
    exact (intercalate_concat service hwords).symm

theorem grepService_of_line {service : List Char} (h : '\n' ∉ service) :
    grepService service = isServiceComponent service := by
  rw [grepService, List.splitOn_eq_singleton h, List.any_cons, List.any_nil, Bool.or_false]

/-- What the loop makes of the services that are left, after those it has seen. -/
def scanned (launchComponent : LaunchComponent) (seen services : List (List Char)) :
    Option (List Char) :=
  if (seen ++ services).length ≤ 64 ∧ (seen ++ services).Nodup ∧
      ∀ service ∈ services, isServiceComponent service = true then
    some (join (kept launchComponent (seen ++ services)))
  else none

/-- The list after one more service. -/
theorem kept_concat (seen : List (List Char)) (hseen : ∀ s ∈ seen, isServiceComponent s = true)
    (service : List Char) :
    (if service ∈ obsolete launchComponent then join (kept launchComponent seen)
      else extend (join (kept launchComponent seen)) service) =
        join (kept launchComponent (seen ++ [service])) := by
  have hne : ∀ word ∈ kept launchComponent seen, word ≠ [] := fun word hword =>
    ne_nil_of_service (hseen word (List.mem_of_mem_filter hword))
  rw [kept, kept, List.filter_append]
  split
  · rename_i hobsolete
    simp [hobsolete]
  · rename_i hcurrent
    rw [← kept, extend_join hne]
    simp [hcurrent]

theorem scan_eq {rest : List Char} (hline : '\n' ∉ rest) (seen : List (List Char))
    (hseen : ∀ s ∈ seen, isServiceComponent s = true) (hnodup : seen.Nodup) :
    scan launchComponent (':' :: terminated ':' seen) (join (kept launchComponent seen)) rest
      seen.length = scanned launchComponent seen (rest.splitOn ':') := by
  induction hlength : rest.length using Nat.strong_induction_on generalizing rest seen with
  | _ n ih =>
    have hcolon : isServiceChar ':' = false := by decide
    have hservice : '\n' ∉ beforeFirst ':' rest :=
      fun h => hline ((List.takeWhile_prefix _).subset h)
    have hfirst : ∃ services, rest.splitOn ':' = beforeFirst ':' rest :: services := by
      by_cases hmem : ':' ∈ rest
      · exact ⟨_, splitOn_of_mem hmem⟩
      · exact ⟨[], by rw [List.splitOn_eq_singleton hmem, beforeFirst_of_not_mem hmem]⟩
    obtain ⟨services, hsplit⟩ := hfirst
    rw [scan, scanned, hsplit, grepService_of_line hservice]
    split
    · rename_i hbad
      refine (if_neg ?_).symm
      rintro ⟨hcount, -, hall⟩
      rw [List.length_append, List.length_cons] at hcount
      rcases hbad with hbad | hbad
      · omega
      · rw [hall _ List.mem_cons_self] at hbad
        cases hbad
    · rename_i hgood
      rw [not_or, not_lt, Bool.not_eq_false] at hgood
      obtain ⟨hcount, hcomponent⟩ := hgood
      have hframe : framed ':' (beforeFirst ':' rest) <:+: ':' :: terminated ':' seen ↔
          beforeFirst ':' rest ∈ seen :=
        framed_infix (not_mem_of_service hcomponent hcolon) fun s hs =>
          not_mem_of_service (hseen s hs) hcolon
      split
      · rename_i hdouble
        refine (if_neg ?_).symm
        rintro ⟨-, hdistinct, -⟩
        exact (List.disjoint_of_nodup_append hdistinct) (hframe.mp hdouble) List.mem_cons_self
      · rename_i hfresh
        rw [hframe] at hfresh
        have hseen' : ∀ s ∈ seen ++ [beforeFirst ':' rest], isServiceComponent s = true := by
          intro s hs
          rcases List.mem_append.mp hs with hs | hs
          · exact hseen s hs
          · exact List.mem_singleton.mp hs ▸ hcomponent
        have hnodup' : (seen ++ [beforeFirst ':' rest]).Nodup :=
          List.nodup_append.mpr ⟨hnodup, List.nodup_singleton _, fun a ha b hb hab =>
            hfresh (List.mem_singleton.mp hb ▸ hab ▸ ha)⟩
        have hmarked : ':' :: terminated ':' seen ++ beforeFirst ':' rest ++ [':'] =
            ':' :: terminated ':' (seen ++ [beforeFirst ':' rest]) := by
          simp [terminated]
        simp only [kept_concat seen hseen, hmarked]
        split
        · rename_i hmem
          rw [splitOn_of_mem hmem, List.cons.injEq] at hsplit
          have hrest : '\n' ∉ afterFirst ':' rest := fun h =>
            hline ((List.dropWhile_sublist _).subset (List.mem_of_mem_drop h))
          have hih := ih _ (hlength ▸ length_afterFirst_lt hmem) hrest _ hseen' hnodup' rfl
          rw [List.length_append, List.length_singleton] at hih
          rw [hih, scanned, ← hsplit.2]
          simp [hcomponent]
        · rename_i hmem
          rw [List.splitOn_eq_singleton hmem, List.cons.injEq] at hsplit
          rw [← hsplit.2, if_pos]
          refine ⟨?_, hnodup', ?_⟩
          · rw [List.length_append, List.length_singleton]
            exact hcount
          · exact fun s hs => List.mem_singleton.mp hs ▸ hcomponent

/-- A known service is found in the text exactly if it is in the list. -/
theorem framed_infix_join {name : List Char} (hname : isServiceComponent name = true)
    (hwords : ∀ word ∈ words, isServiceComponent word = true) :
    framed ':' name <:+: framed ':' (join words) ↔ name ∈ words := by
  have hcolon : isServiceChar ':' = false := by decide
  by_cases hnil : words = []
  · subst hnil
    refine iff_of_false (fun h => ?_) List.not_mem_nil
    have hlength := h.length_le
    have hpos := List.length_pos_of_ne_nil (ne_nil_of_service hname)
    simp only [framed, join, List.intercalate, List.intersperse, List.flatten, List.length_cons,
      List.length_append, List.length_nil] at hlength
    omega
  · rw [show framed ':' (join words) = ':' :: terminated ':' words by
      rw [terminated_eq_intercalate hnil]; rfl]
    exact framed_infix (not_mem_of_service hname hcolon) fun word hword =>
      not_mem_of_service (hwords word hword) hcolon

/-- The end of the program, on a list it has accepted. -/
theorem granted_of_kept (hwords : ∀ word ∈ words, isServiceComponent word = true) :
    (if (known launchComponent).any fun name =>
        decide (framed ':' name <:+: framed ':' (join (kept launchComponent words))) then
      join (kept launchComponent words)
    else extend (join (kept launchComponent words)) (component launchComponent)) =
      join (grantedEntries launchComponent words) := by
  have hkept : ∀ word ∈ kept launchComponent words, isServiceComponent word = true :=
    fun word hword => hwords word (List.mem_of_mem_filter hword)
  have hfound : ((known launchComponent).any fun name =>
      decide (framed ':' name <:+: framed ':' (join (kept launchComponent words)))) = true ↔
        ∃ name ∈ kept launchComponent words, name ∈ known launchComponent := by
    rw [List.any_eq_true]
    constructor
    · rintro ⟨name, hname, hfound⟩
      rw [decide_eq_true_eq, framed_infix_join (isServiceComponent_known hname) hkept] at hfound
      exact ⟨name, hfound, hname⟩
    · rintro ⟨name, hfound, hname⟩
      refine ⟨name, hname, ?_⟩
      rw [decide_eq_true_eq, framed_infix_join (isServiceComponent_known hname) hkept]
      exact hfound
  rw [grantedEntries]
  by_cases h : ∃ name ∈ kept launchComponent words, name ∈ known launchComponent
  · rw [if_pos (hfound.mpr h), if_pos h]
  · rw [if_neg (fun hf => h (hfound.mp hf)), if_neg h]
    exact extend_join (fun word hword => ne_nil_of_service (hkept word hword)) _

theorem grantedByShell_eq (shell : Shell) (before : List Char) :
    grantedByShell shell before launchComponent = expected before launchComponent := by
  rw [grantedByShell, expected]
  by_cases hall : ∀ service ∈ entries before, isServiceComponent service = true
  · have hchars := chars_of_services hall
    have hlength : shell.length before = before.length :=
      shell.length_ascii before fun c hc => (hchars c hc).1
    have hline : '\n' ∉ before := fun h => (hchars _ h).2 rfl
    have hscanned : (if before = [] ∨ before = "null".toList then some []
        else scan launchComponent [':'] [] before 0) = scanned launchComponent []
          (entries before) := by
      rw [entries]
      split
      · rw [scanned, if_pos ⟨Nat.zero_le _, List.nodup_nil, fun _ h => by cases h⟩]
        rfl
      · exact scan_eq hline [] (fun _ h => by cases h) List.nodup_nil
    simp only [hscanned, hlength, hline, not_false_eq_true, and_true, scanned, List.nil_append]
    by_cases h : Readable before
    · rw [if_pos h.length, if_pos h, if_pos ⟨h.count, h.nodup, h.services⟩, Option.map_some,
        granted_of_kept hall]
    · rw [if_neg h]
      split
      · rename_i hshort
        rw [if_neg fun hgood => h ⟨hshort, hgood.1, hgood.2.1, hgood.2.2⟩]
        rfl
      · rfl
  · rw [if_neg fun h : Readable before => hall h.services]
    split
    · rename_i hvalid
      have hne : ¬(before = [] ∨ before = "null".toList) := by
        intro hempty
        rw [entries, if_pos hempty] at hall
        exact hall fun _ h => by cases h
      have hscan : scan launchComponent [':'] [] before 0 =
          scanned launchComponent [] (before.splitOn ':') :=
        scan_eq hvalid.2 [] (fun _ h => by cases h) List.nodup_nil
      rw [entries, if_neg hne] at hall
      rw [if_neg hne, hscan, scanned, if_neg fun hgood => hall hgood.2.2]
      rfl
    · rfl

end

/-- The shell program, the network installer and the browser refuse the same texts, and make the
same list of the others. -/
theorem one_accessibility_list (shell : Shell) (before : List Char)
    (launchComponent : LaunchComponent) :
    grantedByShell shell before launchComponent = expectedServices before launchComponent ∧
      browserExpectedServices before packageId launchComponent =
        expectedServices before launchComponent := by
  rw [grantedByShell_eq, expectedServices_eq, browserExpectedServices_eq]
  exact ⟨rfl, rfl⟩

/-- A shell that counts characters. -/
def Shell.characters : Shell := ⟨List.length, fun _ _ => rfl⟩

def reader : List Char := "com.example.reader/.ReaderService".toList

def keyboard : List Char := "org.example.keys/org.example.keys.Input$Service".toList

/-- Services of two other apps, and between them one that the build has left behind. -/
def mixed : List Char := join [reader, oldService, keyboard]

theorem one_accessibility_list_mixed :
    grantedByShell .characters mixed .newClasses = some (join [reader, keyboard, newService]) ∧
      browserExpectedServices mixed packageId .newClasses =
        some (join [reader, keyboard, newService]) := by
  have hnetwork : expectedServices mixed .newClasses =
    some (join [reader, keyboard, newService]) := by
    decide +kernel
  obtain ⟨hshell, hbrowser⟩ := one_accessibility_list .characters mixed .newClasses
  rw [hshell, hbrowser]
  exact ⟨hnetwork, hnetwork⟩

end PanelAssistant.Accessibility
