import S3mp.Common.HiddenCredentials

/-!
# Bare credentials

A bare credential is hidden by `HEADER_PATTERN` alone, in what `BEARER_PATTERN` has
left of the text.  When that has taken the separator, its replacement stands before
the credential, and no name and separator do.
-/

namespace S3mp.Redaction

open Encoding Storage

section

variable {isalnum : Char → Bool} {prev : Option Char} {c l sep : Char}
  {p q r r' s t u v w x y front : List Char} {F : Frame} {m : Matcher Char}

/-! ## The replacement of a Bearer token -/

def bearerText : List Char := "Bearer ".toList ++ redacted

/-- The name fails within the text. -/
def fails : List Char → List Char → Bool
  | l :: name, c :: t => !(decide (c ∈ variants l)) || fails name t
  | _, _ => false

theorem eat_of_fails {name : List Char} (h : fails name p = true) (r : List Char) :
    eat name (p ++ r) = none := by
  induction name generalizing p with
  | nil => cases p <;> cases h
  | cons l name ih =>
      cases p with
      | nil => cases h
      | cons c p =>
          rw [List.cons_append, eat]
          split
          · rename_i hc
            rw [fails, decide_eq_true hc] at h
            exact ih h
          · rfl

theorem header_of_fails (h : names.all (fails · p) = true) (prev : Option Char) (r : List Char) :
    header isalnum prev (p ++ r) = none := by
  have hfind : names.findSome? (headerNamed (p ++ r)) = none := by
    refine List.findSome?_eq_none_iff.mpr fun name hname ↦ ?_
    rw [headerNamed, eat_of_fails (List.all_eq_true.mp h name hname)]
    rfl
  unfold header
  rw [hfind]
  exact ite_self _

/-- No match of `HEADER_PATTERN` goes over the end of what a Bearer token has been replaced by. -/
theorem overrun_bearerText (hspaces : ∀ c ∈ w, isPySpace c = true) (out : List Char) :
    overrun (header isalnum) none 0 (out ++ bearerText ++ w) ['!'] = 0 := by
  have hsplit : out ++ bearerText ++ w = out ++ "Beare".toList ++ ['r'] ++
      (" [REDACTED]".toList ++ w) := by
    have htext : bearerText = "Beare".toList ++ (['r'] ++ " [REDACTED]".toList) := by decide
    rw [htext]
    simp only [List.append_assoc]
  have hbarred : Barred (" [REDACTED]".toList ++ w ++ ['!']) :=
    ⟨[' '], '[', "REDACTED]".toList ++ w ++ ['!'], rfl, by simp,
      fun c hc ↦ by rw [List.mem_singleton.mp hc]; decide, by decide, by decide⟩
  have hfront : overrun (header isalnum) none 0 (out ++ "Beare".toList ++ ['r'])
      (" [REDACTED]".toList ++ w ++ ['!']) = 0 :=
    (scan_barred (by decide) (by decide) hbarred hbarred).2.1
  have hreplaced : ∀ prev r,
      overrun (header isalnum) prev 0 " [REDACTED]".toList r = 0 := by
    intro prev r
    have htails : (" [REDACTED]".toList.tails.all fun p ↦
        decide (p = []) || names.all (fails · p)) = true := by
      decide +kernel
    refine (scan_none (fun p hp hne prev ↦ header_of_fails ?_ prev r) prev).2
    have hall := List.all_eq_true.mp htails p ((List.mem_tails p _).mpr hp)
    rw [decide_eq_false hne, Bool.false_or] at hall
    exact hall
  rw [hsplit, (emitted_append _ none 0 _ _ _).2, hfront, (emitted_append _ _ 0 _ _ _).2, hreplaced]
  exact (scan_starts (fun c hc prev t ↦ (matchers_none isalnum hc prev t).2.1)
    (fun c hc ↦ (space_classes (hspaces c hc)).2.2.2.2.1) _ _).2

/-! ## The lead of a bare credential -/

theorem suffix_separated (hp : p <:+ u ++ sep :: w) :
    (∃ u', p = u' ++ sep :: w) ∨ p <:+ w := by
  rcases List.suffix_or_suffix_of_suffix hp (List.suffix_append u (sep :: w)) with hp | ⟨u', hu'⟩
  · rcases List.suffix_cons_iff.mp hp with rfl | hp
    · exact Or.inl ⟨[], rfl⟩
    · exact Or.inr hp
  · exact Or.inl ⟨u', hu'.symm⟩

theorem spaces_none (hspaces : ∀ c ∈ w, isPySpace c = true) (hp : p <:+ w) (hne : p ≠ [])
    (prev : Option Char) (r : List Char) :
    bearer isalnum prev (p ++ r) = none ∧ header isalnum prev (p ++ r) = none := by
  cases p with
  | nil => exact absurd rfl hne
  | cons c p =>
      have hstart := (space_classes (hspaces c (hp.subset List.mem_cons_self))).2.2.2.2.1
      obtain ⟨hbearer, hheader, -⟩ := matchers_none isalnum hstart prev (p ++ r)
      exact ⟨hbearer, hheader⟩

theorem head_separated (u w r r' : List Char) :
    (u ++ sep :: (w ++ r)).head? = (u ++ sep :: (w ++ r')).head? := by
  cases u with
  | nil => rfl
  | cons c u => rfl

/-- What `BEARER_PATTERN` leaves of the lead. -/
theorem bearer_lead (isalnum : Char → Bool) (hsep : isSeparator sep = true)
    (hspaces : ∀ c ∈ w, isPySpace c = true) (u : List Char) :
    (∃ u', emitted (bearer isalnum) none 0 (u ++ sep :: w) ['!'] = u' ++ sep :: w) ∨
      ∃ out, emitted (bearer isalnum) none 0 (u ++ sep :: w) ['!'] = out ++ bearerText ++ w := by
  have hbang : w ≠ [] ∨ ∀ c ∈ ['!'].head?, isToken c = false :=
    Or.inr fun c hc ↦ by obtain rfl := Option.some.inj hc; decide
  have hscan := scan_over (bearer isalnum) none u [sep] (w ++ ['!']) [sep] (w ++ ['!'])
    fun p _ _ prev ↦ by
      have hsplit : p ++ ([sep] ++ (w ++ ['!'])) = p ++ sep :: (w ++ ['!']) := rfl
      rw [hsplit]
      unfold bearer
      split
      · cases bearer_before hsep hspaces p with
        | no h =>
            rw [h]
            exact .within .none
        | yes q hq h =>
            have hlt := bearerTail_lt (h ['!'])
            rw [h]
            refine .within (.some _ q ?_)
            simp only [List.length_append] at hlt
            omega
        | past h =>
            rw [h _ hbang]
            exact .past _
      · exact .within .none
  obtain ⟨hemitted, -⟩ := emitted_append (bearer isalnum) none 0 u (sep :: w) ['!']
  rw [hemitted]
  rcases hscan.2 with ⟨hover, -⟩ | ⟨hover, -⟩
  · refine Or.inl ⟨emitted (bearer isalnum) none 0 u (sep :: w ++ ['!']), ?_⟩
    have hstarts : emitted (bearer isalnum) (before none u) 0 (sep :: w) ['!'] = sep :: w ∧ _ :=
      scan_starts (fun c hc prev t ↦ (matchers_none isalnum hc prev t).1) (fun c hc ↦ by
        rcases List.mem_cons.mp hc with rfl | hc
        · exact (separator_classes hsep).2.2.1
        · exact (space_classes (hspaces c hc)).2.2.2.2.1) (before none u) ['!']
    have hover' : overrun (bearer isalnum) none 0 u (sep :: w ++ ['!']) = 0 := hover
    rw [hover', hstarts.1]
  · have hover' : overrun (bearer isalnum) none 0 u (sep :: w ++ ['!']) = 1 := hover
    obtain ⟨out, text, hout, rfl⟩ := emitted_of_overrun (· = bearerText) bearer_ends
      (Nat.zero_le _) (hover' ▸ Nat.one_pos)
    refine Or.inr ⟨out, ?_⟩
    have hskip : emitted (bearer isalnum) (before none u) 1 (sep :: w) ['!'] = w :=
      (scan_starts (fun c hc prev t ↦ (matchers_none isalnum hc prev t).1)
        (fun c hc ↦ (space_classes (hspaces c hc)).2.2.2.2.1) _ _).1
    rw [hover', hskip, hout]

/-- A match of `HEADER_PATTERN` goes over a credential behind the lead. -/
def Reached (isalnum : Char → Bool) (lead : List Char) : Prop :=
  0 < overrun (header isalnum) none 0 (emitted (bearer isalnum) none 0 lead ['!']) ['!']

theorem emitted_of_reached (hsep : isSeparator sep = true) (hspaces : ∀ c ∈ w, isPySpace c = true)
    (h : Reached isalnum (u ++ sep :: w)) :
    ∃ u', emitted (bearer isalnum) none 0 (u ++ sep :: w) ['!'] = u' ++ sep :: w := by
  rcases bearer_lead isalnum hsep hspaces u with hout | ⟨out, hout⟩
  · exact hout
  · rw [Reached, hout, overrun_bearerText hspaces] at h
    exact absurd h (lt_irrefl 0)

/-- The first pass leaves the lead as it is scanned before an exclamation mark. -/
theorem bearer_pass (hsep : isSeparator sep = true) (hspaces : ∀ c ∈ w, isPySpace c = true)
    (h : Reached isalnum (u ++ sep :: w)) (r : List Char) :
    substitute (bearer isalnum) none 0 (u ++ sep :: w ++ r) =
      emitted (bearer isalnum) none 0 (u ++ sep :: w) ['!'] ++
        substitute (bearer isalnum) (before none (u ++ sep :: w)) 0 r := by
  have hscan := scan_within_or_ends (bearer isalnum) none (u ++ sep :: w) r ['!'] (· = bearerText)
    fun p hp hne prev ↦ by
      rcases suffix_separated hp with ⟨p, rfl⟩ | hp
      · rw [List.append_assoc, List.append_assoc, List.cons_append, List.cons_append]
        unfold bearer boundary
        rw [head_separated p w r ['!']]
        split
        · cases bearer_before hsep hspaces p with
          | no h =>
              rw [h, h]
              exact Or.inl .none
          | yes q hq h =>
              obtain ⟨z, rfl⟩ := hq
              have hlt := bearerTail_lt (h ['!'])
              rw [h, h]
              have hassoc : ∀ r, q ++ sep :: (w ++ r) = q ++ sep :: w ++ r := fun r ↦ by simp
              rw [Option.map_some, Option.map_some, hassoc, hassoc]
              refine Or.inl (.some _ _ ?_)
              simp only [List.length_append, List.length_cons] at hlt ⊢
              omega
          | past h =>
              have hbang : w ≠ [] ∨ ∀ c ∈ ['!'].head?, isToken c = false :=
                Or.inr fun c hc ↦ by obtain rfl := Option.some.inj hc; decide
              rw [h _ hbang]
              by_cases hw : w = []
              · subst hw
                exact Or.inr ⟨bearerText, rfl, rfl⟩
              · rw [h _ (Or.inl hw)]
                refine Or.inl (.some _ w ?_)
                simp only [List.length_append, List.length_cons]
                omega
        · exact Or.inl .none
      · rw [(spaces_none hspaces hp hne prev r).1, (spaces_none hspaces hp hne prev ['!']).1]
        exact Or.inl .none
  rcases hscan with ⟨hemitted, hover, -⟩ | ⟨out, text, hout, rfl⟩
  · rw [substitute_append, hemitted, hover]
  · rw [Reached, hout] at h
    have hzero : overrun (header isalnum) none 0 (out ++ bearerText ++ []) ['!'] = 0 :=
      overrun_bearerText (fun c hc ↦ by cases hc) out
    rw [List.append_nil] at hzero
    rw [hzero] at h
    exact absurd h (lt_irrefl 0)

/-- The second pass goes over the credential. -/
theorem header_pass (hsep : isSeparator sep = true) (hspaces : ∀ c ∈ w, isPySpace c = true)
    (h : Reached isalnum (u ++ sep :: w)) (hx : Ended x s) (hs : Idle (header isalnum) s) :
    substitute (header isalnum) none 0
        (emitted (bearer isalnum) none 0 (u ++ sep :: w) ['!'] ++ (x ++ s)) =
      emitted (header isalnum) none 0 (emitted (bearer isalnum) none 0 (u ++ sep :: w) ['!']) ['!'] ++
        substitute (header isalnum) none 0 s := by
  obtain ⟨u', hout⟩ := emitted_of_reached hsep hspaces h
  rw [Reached, hout] at h
  rw [hout]
  have hbang : Ended ['!'] [] := by
    refine ⟨List.cons_ne_nil _ _, fun c hc ↦ ?_, fun c hc ↦ by cases hc⟩
    rw [List.mem_singleton.mp hc]
    decide
  have hscan := scan_over (header isalnum) none (u' ++ sep :: w) x s ['!'] []
    fun p hp hne prev ↦ by
      rcases suffix_separated hp with ⟨p, rfl⟩ | hp
      · exact over_header (headerReaches_separated hsep hspaces p) hne hx hbang prev
      · rw [(spaces_none hspaces hp hne prev _).2, (spaces_none hspaces hp hne prev _).2]
        exact .within .none
  have hover := (hscan.2.resolve_left fun hzero ↦ by
    have hzero' := hzero.2
    rw [List.append_nil] at hzero'
    rw [hzero'] at h
    exact absurd h (lt_irrefl 0)).1
  rw [substitute_append, hover, hscan.1, substitute_skip, List.append_nil]
  exact congrArg _ (substitute_idle hs _ _)

/-! ## When a bare credential is hidden -/

/-- No Bearer token begins in a value before which none goes on. -/
theorem value_pass (hx : ∀ c ∈ x, isValue c = true) (hs : ∀ c ∈ s.head?, isValue c = false)
    (hgoes : goesOn s = false) (prev : Option Char) :
    substitute (bearer isalnum) prev 0 (x ++ s) = x ++ substitute (bearer isalnum) none 0 s := by
  have hname : ∀ c ∈ s.head?, isNameChar c = false := by
    intro c hc
    rcases not_value_cases (hs c hc) with hspace | rfl | rfl
    · exact (space_classes hspace).1
    · decide +kernel
    · decide +kernel
  have htail : many isPySpace s = none ∨ (many isPySpace s).bind (many isToken) = none := by
    unfold many
    split
    · rename_i hspace
      refine Or.inr ?_
      rw [goesOn, hspace, Bool.true_and] at hgoes
      exact if_neg (by simp [hgoes])
    · exact Or.inl rfl
  have hnone : ∀ p, p <:+ x → p ≠ [] → ∀ prev, bearer isalnum prev (p ++ s) = none := by
    intro p hp hne prev
    have htail : bearerTail (p ++ s) = none := by
      have heat : Decides (eat "bearer".toList) p (· = s) :=
        decides_eat fun r hr c hc ↦ by
          subst hr
          exact not_variant_of_not_nameChar (hname c hc) List.mem_cons_self
      unfold bearerTail
      cases heat with
      | no h => rw [h s rfl]; rfl
      | yes q hq h =>
          rw [h s rfl, Option.bind_some]
          cases q with
          | nil =>
              rcases htail with htail | htail
              · rw [List.nil_append, htail]
                rfl
              · exact htail
          | cons c q =>
              have hc := hx c (hp.subset (hq.subset List.mem_cons_self))
              have hspace : many isPySpace (c :: q ++ s) = none :=
                if_neg (by simp [isPySpace_of_isValue hc])
              rw [hspace]
              rfl
    unfold bearer
    rw [htail]
    exact ite_self _
  obtain ⟨hemitted, hover⟩ := scan_none hnone prev
  rw [substitute_append, hemitted, hover]
  exact congrArg _ (substitute_idle ((closing_of_not_value hs).idle isalnum).1 _ _)

theorem hidden_of_reached (hlead : F.lead = u ++ sep :: w) (hsep : isSeparator sep = true)
    (hspaces : ∀ c ∈ w, isPySpace c = true) (hholds : ∀ c, F.holds c = isValue c)
    (hafter : ∀ c ∈ F.after.head?, isValue c = false) (h : Reached isalnum F.lead)
    (hgoes : goesOn F.after = false) : F.Hidden isalnum := by
  rw [hlead] at h
  have hclosing := closing_of_not_value hafter
  have hhead := head_substitute (hclosing.idle isalnum).1 none
  have hended : ∀ x, F.Credential x → Ended x (substitute (bearer isalnum) none 0 F.after) :=
    fun x hx ↦ ⟨hx.ne_nil, fun c hc ↦ hholds c ▸ hx.holds c hc, fun c hc ↦ hafter c (hhead ▸ hc)⟩
  have hidle := ((hclosing.congr hhead).idle isalnum).2.1
  intro x y hx hy
  unfold redactText Frame.text
  rw [hlead, bearer_pass hsep hspaces h, bearer_pass hsep hspaces h,
    value_pass (hended x hx).value hafter hgoes, value_pass (hended y hy).value hafter hgoes]
  dsimp only
  rw [header_pass hsep hspaces h (hended x hx) hidle, header_pass hsep hspaces h (hended y hy) hidle]

theorem not_hidden_of_not_reached (hholds : ∀ c, F.holds c = isValue c)
    (hafter : ∀ c ∈ F.after.head?, isValue c = false) (h : ¬ Reached isalnum F.lead) :
    ¬ F.Hidden isalnum := by
  intro hhidden
  have hcredential : ∀ l, l = 'q' ∨ l = 'j' → F.Credential ['!', '/', l] := by
    rintro l (rfl | rfl)
    · exact Frame.credential_of_all hholds (by decide) (by decide)
    · exact Frame.credential_of_all hholds (by decide) (by decide)
  have hquiet : isNameChar '!' = false ∧ isPySpace '!' = false ∧ isToken '!' = false := by
    decide +kernel
  have hbearer : ∀ r, emitted (bearer isalnum) none 0 F.lead ('!' :: r) =
      emitted (bearer isalnum) none 0 F.lead ['!'] ∧
        overrun (bearer isalnum) none 0 F.lead ('!' :: r) = 0 := by
    intro r
    obtain ⟨hemitted, hover, -⟩ := scan_quiet isalnum hquiet F.lead r []
    exact ⟨hemitted, hover⟩
  generalize hout : emitted (bearer isalnum) none 0 F.lead ['!'] = out at hbearer
  have hbang : ∀ x s, (∀ c ∈ x, isValue c = true) → (∀ c ∈ s.head?, isValue c = false) →
      Banged ('!' :: x) s := by
    intro x s hx hs
    refine ⟨rfl, List.cons_ne_nil _ _, fun c hc ↦ ?_, hs⟩
    rcases List.mem_cons.mp hc with rfl | hc
    · decide
    · exact hx c hc
  have hheader : ∀ l t, l = 'q' ∨ l = 'j' → t.head? = F.after.head? →
      emitted (header isalnum) none 0 out (['!', '/'] ++ l :: t) =
          emitted (header isalnum) none 0 out ['!'] ∧
        overrun (header isalnum) none 0 out (['!', '/'] ++ l :: t) = 0 := by
    intro l t hl ht
    have hx := hbang ['/', l] t (fun c hc ↦ by
      rw [← hholds]
      exact (hcredential l hl).holds c (List.mem_cons_of_mem _ hc)) fun c hc ↦ hafter c (ht ▸ hc)
    have hy := hbang [] [] (fun c hc ↦ by cases hc) fun c hc ↦ by cases hc
    have hscan := scan_over (header isalnum) none out ['!', '/', l] t ['!'] [] fun p _ hne prev ↦
      over_header (headerReaches_banged p) hne hx hy prev
    refine ⟨hscan.1, (hscan.2.resolve_right fun hover ↦ h ?_).1⟩
    rw [Reached, hout]
    exact lt_of_lt_of_eq Nat.one_pos hover.2.symm
  have hv : ∀ c ∈ ['!', '/'], isSchemeStart c = false :=
    List.forall_mem_cons.mpr ⟨by decide, List.forall_mem_singleton.mpr (by decide)⟩
  refine shown hv F.closing (fun l _ ↦ hbearer ('/' :: l :: F.after)) hheader
    (fun t ↦ (scan_url _ (urlStops_bang t) (urlStops_bang [])).imp_right And.left) ?_
  exact hhidden _ _ (hcredential 'q' (Or.inl rfl)) (hcredential 'j' (Or.inr rfl))

/-! ## The word `Bearer` before a token -/

/-- The first character of a token stays one of a token. -/
theorem token_head (isalnum : Char → Bool) (hc : isToken c = true) (prev : Option Char) (t : List Char) :
    (∃ d t', substitute (bearer isalnum) prev 0 (c :: t) = d :: t' ∧ isToken d = true) ∧
      (∃ t', substitute (header isalnum) prev 0 (c :: t) = c :: t') ∧
      ∃ t', substitute urlPassword prev 0 (c :: t) = c :: t' := by
  have htake : ∀ rest : List Char, rest.length < (c :: t).length →
      ∃ t', (c :: t).take ((c :: t).length - rest.length) = c :: t' := by
    intro rest hrest
    obtain ⟨n, hn⟩ := Nat.exists_eq_succ_of_ne_zero (Nat.sub_ne_zero_of_lt hrest)
    exact ⟨t.take n, by rw [hn]; rfl⟩
  refine ⟨?_, ?_, ?_⟩
  · rw [substitute]
    cases hm : bearer isalnum prev (c :: t) with
    | none => exact ⟨c, _, rfl, hc⟩
    | some found =>
        obtain ⟨text, rest⟩ := found
        obtain rfl := bearer_ends _ _ _ _ hm
        exact ⟨'B', _, rfl, by decide⟩
  · rw [substitute]
    cases hm : header isalnum prev (c :: t) with
    | none => exact ⟨_, rfl⟩
    | some found =>
        obtain ⟨text, rest⟩ := found
        unfold header at hm
        split at hm
        · obtain ⟨name, hname, hnamed⟩ := List.exists_of_findSome?_eq_some hm
          obtain ⟨left, heat, hnamed⟩ := Option.bind_eq_some_iff.mp hnamed
          obtain ⟨_, -, hnamed⟩ := Option.map_eq_some_iff.mp hnamed
          obtain ⟨rfl, rfl⟩ := Prod.mk.inj hnamed
          have hlt : left.length < (c :: t).length := by
            cases hcases : name with
            | nil => exact absurd hcases (names_ne_nil hname)
            | cons l name =>
                rw [hcases, eat] at heat
                split at heat
                · exact Nat.lt_succ_of_le (eat_le heat)
                · cases heat
          obtain ⟨t', ht'⟩ := htake left hlt
          rw [ht']
          exact ⟨_, rfl⟩
        · cases hm
  · rw [substitute]
    cases hm : urlPassword prev (c :: t) with
    | none => exact ⟨_, rfl⟩
    | some found =>
        obtain ⟨text, rest⟩ := found
        obtain ⟨left, hscheme, hnamed⟩ := Option.bind_eq_some_iff.mp hm
        obtain ⟨_, -, hnamed⟩ := Option.map_eq_some_iff.mp hnamed
        obtain ⟨rfl, rfl⟩ := Prod.mk.inj hnamed
        have hlt : left.length < (c :: t).length := by
          obtain ⟨t₁, h₁, hscheme⟩ := Option.bind_eq_some_iff.mp hscheme
          obtain ⟨t₂, h₂, hscheme⟩ := Option.bind_eq_some_iff.mp hscheme
          obtain ⟨t₃, h₃, hscheme⟩ := Option.bind_eq_some_iff.mp hscheme
          obtain ⟨t₄, h₄, hscheme⟩ := Option.bind_eq_some_iff.mp hscheme
          obtain ⟨t₅, h₅, h₆⟩ := Option.bind_eq_some_iff.mp hscheme
          have hdrop := List.length_dropWhile_le isScheme t₁
          have hone := one_lt h₁
          have hone₂ := one_lt h₂
          have hone₃ := one_lt h₃
          have hone₄ := one_lt h₄
          have hmany := many_lt h₅
          have hone₆ := one_lt h₆
          omega
        obtain ⟨t', ht'⟩ := htake left hlt
        rw [ht']
        exact ⟨_, rfl⟩

/-- Spaces stay before what stands behind them. -/
theorem substitute_spaces (hm : ∀ c, isSchemeStart c = false → ∀ prev t, m prev (c :: t) = none)
    (hspaces : ∀ c ∈ w, isPySpace c = true) (prev : Option Char) (r : List Char) :
    substitute m prev 0 (w ++ r) = w ++ substitute m (before prev w) 0 r := by
  obtain ⟨hemitted, hover⟩ := scan_starts hm
    (fun c hc ↦ (space_classes (hspaces c hc)).2.2.2.2.1) prev r
  rw [substitute_append, hemitted, hover]

theorem substitute_bracket (hm : ∀ c, isSchemeStart c = false → ∀ prev t, m prev (c :: t) = none)
    (prev : Option Char) (r : List Char) :
    ∃ r', substitute m prev 0 (' ' :: '[' :: r) = ' ' :: '[' :: r' := by
  rw [substitute_cons (hm ' ' (by decide) _ _), substitute_cons (hm '[' (by decide) _ _)]
  exact ⟨_, rfl⟩

theorem goesOn_split (h : goesOn s = true) : ∃ w c t, s = w ++ c :: t ∧ w ≠ [] ∧
    (∀ c ∈ w, isPySpace c = true) ∧ isToken c = true := by
  rw [goesOn, Bool.and_eq_true] at h
  obtain ⟨hspace, htoken⟩ := h
  cases hdrop : s.dropWhile isPySpace with
  | nil =>
      rw [hdrop] at htoken
      cases htoken
  | cons c t =>
      rw [hdrop] at htoken
      refine ⟨s.takeWhile isPySpace, c, t, ?_, ?_, fun d hd ↦ List.mem_takeWhile_imp hd, htoken⟩
      · rw [← hdrop, List.takeWhile_append_dropWhile]
      · cases s with
        | nil => cases hspace
        | cons d s =>
            rw [List.takeWhile_cons, if_pos (by simpa using hspace)]
            exact List.cons_ne_nil _ _

theorem isWord_before (isalnum : Char → Bool) (hsep : isSeparator sep = true)
    (hspaces : ∀ c ∈ w, isPySpace c = true) (u : List Char) : (before none (u ++ sep :: w)).any (isWord isalnum) = false := by
  have hspace : ∀ c, isPySpace c = true → isWord isalnum c = false := by
    intro c hc
    have hascii := forall_space (fun c ↦ c ≠ '_' && (128 ≤ c.toNat || !c.isAlphanum))
      (by decide +kernel) hc
    simp only [Bool.and_eq_true, decide_eq_true_eq, Bool.or_eq_true, Bool.not_eq_true'] at hascii
    unfold isWord
    rw [decide_eq_false hascii.1, Bool.false_or]
    split
    · exact hascii.2.resolve_left (by omega)
    · rw [hc]
      rfl
  have hlast : ∀ prev : Option Char, prev.any (isWord isalnum) = false →
      (before prev w).any (isWord isalnum) = false := by
    intro prev hprev
    induction w generalizing prev with
    | nil => exact hprev
    | cons c w ih =>
        exact ih (fun d hd ↦ hspaces d (List.mem_cons_of_mem c hd)) (some c)
          (hspace c (hspaces c List.mem_cons_self))
  have hfront : ∀ prev : Option Char, before prev (u ++ sep :: w) = before (some sep) w := by
    intro prev
    induction u generalizing prev with
    | nil => rfl
    | cons c u ih => exact ih (some c)
  rw [hfront]
  refine hlast _ ?_
  simp only [isSeparator, Bool.or_eq_true, decide_eq_true_eq] at hsep
  rcases hsep with rfl | rfl
  · rfl
  · rfl

theorem bearer_word (hprev : prev.any (isWord isalnum) = false) (hgoes : goesOn s = true) :
    ∃ r, substitute (bearer isalnum) prev 0 ("Bearer".toList ++ s) =
      "Bearer".toList ++ (' ' :: '[' :: r) := by
  obtain ⟨w, c, t, rfl, hw, hspaces, hc⟩ := goesOn_split hgoes
  have hmany : many isPySpace (w ++ c :: t) = some (c :: t) := by
    exact many_all hw hspaces fun d hd ↦ Option.some.inj hd ▸ isPySpace_of_isToken hc
  have htail : ∃ rest, bearerTail ("Bearer".toList ++ (w ++ c :: t)) = some rest := by
    have heat : eat "bearer".toList ("Bearer".toList ++ (w ++ c :: t)) = some (w ++ c :: t) := rfl
    refine ⟨(c :: t).dropWhile isToken, ?_⟩
    rw [bearerTail, heat, Option.bind_some, hmany, Option.bind_some]
    exact if_pos hc
  obtain ⟨rest, htail⟩ := htail
  have hword : boundary isalnum prev ("Bearer".toList ++ (w ++ c :: t)) = true := by
    unfold boundary
    rw [hprev]
    rfl
  have hmatch : bearer isalnum prev ("Bearer".toList ++ (w ++ c :: t)) =
      some (bearerText, rest) := by
    unfold bearer
    rw [if_pos hword, htail]
    rfl
  refine ⟨"REDACTED]".toList ++ substitute (bearer isalnum) (some 'B')
    (("earer".toList ++ (w ++ c :: t)).length - rest.length) ("earer".toList ++ (w ++ c :: t)), ?_⟩
  have hmatch' : bearer isalnum prev ('B' :: ("earer".toList ++ (w ++ c :: t))) =
      some (bearerText, rest) := hmatch
  change substitute (bearer isalnum) prev 0 ('B' :: ("earer".toList ++ (w ++ c :: t))) = _
  rw [substitute, hmatch']
  rfl

theorem not_hidden_of_goesOn (hlead : F.lead = u ++ sep :: w) (hsep : isSeparator sep = true)
    (hspaces : ∀ c ∈ w, isPySpace c = true) (hholds : ∀ c, F.holds c = isValue c)
    (h : Reached isalnum F.lead) (hgoes : goesOn F.after = true) : ¬ F.Hidden isalnum := by
  intro hhidden
  have hbearer : ∀ c, isSchemeStart c = false → ∀ prev t, bearer isalnum prev (c :: t) = none :=
    fun c hc prev t ↦ (matchers_none isalnum hc prev t).1
  have hheader : ∀ c, isSchemeStart c = false → ∀ prev t, header isalnum prev (c :: t) = none :=
    fun c hc prev t ↦ (matchers_none isalnum hc prev t).2.1
  have hurl : ∀ c, isSchemeStart c = false → ∀ prev t, urlPassword prev (c :: t) = none :=
    fun c hc prev t ↦ (matchers_none isalnum hc prev t).2.2
  have hx : F.Credential "Bearer".toList :=
    Frame.credential_of_all hholds (by decide) (by decide)
  have hy : F.Credential ['!'] := Frame.credential_of_all hholds (by decide) (by decide)
  have heq := hhidden _ _ hx hy
  obtain ⟨w₂, c, t, hafter, hw₂, hspaces₂, hc⟩ := goesOn_split hgoes
  rw [hlead] at h
  obtain ⟨r, hr⟩ := bearer_word (isWord_before isalnum hsep hspaces u) hgoes
  obtain ⟨⟨d, t₁, ht₁, hd⟩, -⟩ := token_head isalnum hc (before (some '!') w₂) t
  have hbang : substitute (bearer isalnum) (before none (u ++ sep :: w)) 0 (['!'] ++ F.after) =
      ['!'] ++ (w₂ ++ d :: t₁) := by
    rw [List.singleton_append, substitute_cons (hbearer '!' (by decide) _ _), hafter,
      substitute_spaces hbearer hspaces₂, ht₁]
    rfl
  have hspace : isValue ' ' = false := by decide
  have hended : Ended "Bearer".toList (' ' :: '[' :: r) :=
    ⟨hx.ne_nil, fun c hc ↦ hholds c ▸ hx.holds c hc,
      fun c hc ↦ by obtain rfl := Option.some.inj hc; exact hspace⟩
  have hended' : Ended ['!'] (w₂ ++ d :: t₁) :=
    ⟨hy.ne_nil, fun c hc ↦ hholds c ▸ hy.holds c hc,
      fun c hc ↦ (space_classes (head_spaces hw₂ hspaces₂ _ c hc)).2.2.1⟩
  have hidle : Idle (header isalnum) (' ' :: '[' :: r) :=
    ((closing_of_not_value hended.ends).idle isalnum).2.1
  have hidle' : Idle (header isalnum) (w₂ ++ d :: t₁) :=
    ((closing_of_not_value hended'.ends).idle isalnum).2.1
  obtain ⟨r₂, hr₂⟩ := substitute_bracket hheader none r
  obtain ⟨-, ⟨t₂, ht₂⟩, -⟩ := token_head isalnum hd (before none w₂) t₁
  unfold redactText Frame.text at heq
  rw [hlead, bearer_pass hsep hspaces h, bearer_pass hsep hspaces h, hr, hbang] at heq
  dsimp only at heq
  rw [header_pass hsep hspaces h hended hidle, header_pass hsep hspaces h hended' hidle', hr₂,
    substitute_spaces hheader hspaces₂, ht₂] at heq
  have hstops : UrlStops (w₂ ++ d :: t₂) := by
    cases w₂ with
    | nil => exact absurd rfl hw₂
    | cons b w₂ => exact urlStops_space (hspaces₂ b List.mem_cons_self) _
  generalize emitted (header isalnum) none 0
    (emitted (bearer isalnum) none 0 (u ++ sep :: w) ['!']) ['!'] = out at heq
  obtain ⟨hemitted, hover, hover'⟩ :=
    scan_url out (urlStops_space (c := ' ') (by decide) ('[' :: r₂)) hstops
  rw [substitute_append, substitute_append, hemitted, hover, hover'] at heq
  have hcancel := List.append_cancel_left heq
  obtain ⟨r₃, hr₃⟩ := substitute_bracket hurl (before none out) r₂
  rw [hr₃, substitute_spaces hurl hspaces₂] at hcancel
  obtain ⟨-, -, t₃, ht₃⟩ := token_head isalnum hd (before (before none out) w₂) t₂
  rw [ht₃] at hcancel
  cases w₂ with
  | nil => exact hw₂ rfl
  | cons b w₃ =>
      have hrest := (List.cons.inj hcancel).2
      cases w₃ with
      | nil =>
          obtain rfl := (List.cons.inj hrest).1
          cases hd
      | cons b' w₃ =>
          obtain rfl := (List.cons.inj hrest).1
          have hbracket := hspaces₂ '[' (by simp)
          cases hbracket

/-! ## The law -/

theorem hidden_iff_of_bare (hscheme : F.scheme = none) (hquoted : F.quoted = false) :
    F.Hidden isalnum ↔ Reached isalnum F.lead ∧ goesOn F.after = false := by
  have hholds : ∀ c, F.holds c = isValue c := by
    intro c
    rw [Frame.holds, hscheme, hquoted]
    rfl
  have hafter : ∀ c ∈ F.after.head?, isValue c = false := by
    have hends := F.ends
    rw [hquoted] at hends
    exact hends
  have hlead : F.lead = F.before ++ F.quote ++ F.name ++ F.quote ++ F.spaceBefore ++
      F.separator :: F.spaceAfter := by
    simp [Frame.lead, Frame.quote, Frame.schemePart, hscheme, hquoted]
  have hspaces : ∀ c ∈ F.spaceAfter, isPySpace c = true :=
    fun c hc ↦ F.spaces c (List.mem_append_right _ hc)
  constructor
  · intro hhidden
    have hreached : Reached isalnum F.lead := by
      by_contra hnot
      exact not_hidden_of_not_reached hholds hafter hnot hhidden
    refine ⟨hreached, ?_⟩
    rw [← Bool.not_eq_true]
    exact fun hgoes ↦ not_hidden_of_goesOn hlead F.separates hspaces hholds hreached hgoes hhidden
  · rintro ⟨hreached, hgoes⟩
    exact hidden_of_reached hlead F.separates hspaces hholds hafter hreached hgoes

/-- A value under a sensitive key is hidden always, and a credential in a text when a pattern
covers it. -/
theorem credentials_hidden_iff {ν : Type} {isalnum : Char → Bool} {lower : String → String}
    {F : Frame} :
    ((∀ value value' : LogValue ν, SameBut lower value value' →
        redact isalnum lower value = redact isalnum lower value') ∧ F.Hidden isalnum) ↔
      F.Covered isalnum := by
  rw [and_iff_right fun value value' h ↦ redact_eq isalnum lower h, Frame.Covered]
  by_cases hscheme : F.scheme.isSome = true
  · rw [if_pos hscheme]
    exact hidden_iff_of_scheme hscheme
  · rw [if_neg hscheme]
    have hnone : F.scheme = none := by simpa using hscheme
    cases hquoted : F.quoted with
    | true => simp [not_hidden_of_quoted hnone hquoted]
    | false =>
        rw [and_iff_right rfl]
        exact hidden_iff_of_bare hnone hquoted

end

/-- `Authorization: Basic`, with nothing after the credential. -/
def basicHeader : Frame where
  before := []
  name := "Authorization".toList
  quoted := false
  spaceBefore := []
  separator := ':'
  spaceAfter := [' ']
  scheme := some ("Basic".toList, [' '])
  after := []
  isName := ⟨"authorization".toList, by decide, by decide +kernel⟩
  spaces := List.all_eq_true.mp (by decide)
  separates := by decide
  isScheme := by
    intro word space h
    obtain ⟨rfl, rfl⟩ := Prod.mk.inj (Option.some.inj h)
    refine ⟨by decide +kernel, by decide, ?_, by decide, ?_⟩
    · exact List.all_eq_true.mp (by decide)
    · exact List.all_eq_true.mp (by decide)
  ends := by simp

/-- A member of a JSON object. -/
def passwordMember : Frame where
  before := ['\x7b']
  name := "password".toList
  quoted := true
  spaceBefore := []
  separator := ':'
  spaceAfter := [' ']
  scheme := none
  after := ['"', '\x7d']
  isName := ⟨"password".toList, by decide, by decide +kernel⟩
  spaces := List.all_eq_true.mp (by decide)
  separates := by decide
  isScheme := by intro word space h; cases h
  ends := rfl

/-- The name takes the scheme for its value, and in JSON a quote parts it from the colon. -/
theorem basic_and_json_credentials_shown :
    (¬ basicHeader.Hidden fun _ ↦ false) ∧ ¬ passwordMember.Hidden fun _ ↦ false := by
  constructor
  · intro h
    have hbasic := h "YTox".toList "Yjoy".toList ⟨by decide, List.all_eq_true.mp (by decide)⟩
      ⟨by decide, List.all_eq_true.mp (by decide)⟩
    revert hbasic
    decide +kernel
  · intro h
    have hjson := h "hunter2".toList "letmein".toList ⟨by decide, List.all_eq_true.mp (by decide)⟩
      ⟨by decide, List.all_eq_true.mp (by decide)⟩
    revert hjson
    decide +kernel

end S3mp.Redaction
