import S3mp.Common.RedactionScans

/-!
# Which credentials redaction hides

A credential stands behind a name and a separator, bare or in quotes, and behind a
scheme if the name is that of the Authorization header.  It is hidden when what
`redact_string` makes of the text does not depend on it.
-/

namespace S3mp.Redaction

open Encoding Storage

/-! ## Texts with a credential -/

/-- What may stand in the name of a scheme. -/
def isSchemeWord (c : Char) : Bool :=
  !isPySpace c && !isSeparator c && c ≠ ',' && c ≠ ';' && c ≠ '"'

/-- A text without its credential: `before`, the name of the credential, a separator and the
scheme, and `after`.  In the quoted form the name and the credential stand in quotes. -/
structure Frame where
  before : List Char
  name : List Char
  quoted : Bool
  spaceBefore : List Char
  separator : Char
  spaceAfter : List Char
  scheme : Option (List Char × List Char)
  after : List Char
  isName : ∃ name' ∈ names, eat name' name = some []
  spaces : ∀ c ∈ spaceBefore ++ spaceAfter, isPySpace c = true
  separates : isSeparator separator = true
  isScheme : ∀ word space, scheme = some (word, space) → eat "authorization".toList name = some [] ∧
    word ≠ [] ∧ (∀ c ∈ word, isSchemeWord c = true) ∧ space ≠ [] ∧ ∀ c ∈ space, isPySpace c = true
  /-- The quotes are closed, and a bare credential is followed by what ends it. -/
  ends : if quoted then after.head? = some '"' else ∀ c ∈ after.head?, isValue c = false

namespace Frame

def quote (F : Frame) : List Char := if F.quoted then ['"'] else []

def schemePart (F : Frame) : List Char :=
  match F.scheme with
  | none => []
  | some (word, space) => word ++ space

def lead (F : Frame) : List Char :=
  F.before ++ F.quote ++ F.name ++ F.quote ++ F.spaceBefore ++
    F.separator :: (F.spaceAfter ++ F.quote ++ F.schemePart)

def text (F : Frame) (credential : List Char) : List Char := F.lead ++ (credential ++ F.after)

/-- The characters of a credential: those of a token behind a scheme, all but the quote in
quotes, and otherwise what no space, comma or semicolon ends. -/
def holds (F : Frame) (c : Char) : Bool :=
  if F.scheme.isSome then isToken c else if F.quoted then c ≠ '"' else isValue c

structure Credential (F : Frame) (x : List Char) : Prop where
  ne_nil : x ≠ []
  holds : ∀ c ∈ x, F.holds c = true

/-- The redacted text does not depend on the credential. -/
def Hidden (isalnum : Char → Bool) (F : Frame) : Prop :=
  ∀ x y, F.Credential x → F.Credential y →
    redactText isalnum (F.text x) = redactText isalnum (F.text y)

variable {F : Frame} {x : List Char}

theorem credential_of_all {test : Char → Bool} (hholds : ∀ c, F.holds c = test c) (hne : x ≠ [])
    (hall : x.all test = true) : F.Credential x :=
  ⟨hne, fun c hc ↦ (hholds c).trans (List.all_eq_true.mp hall c hc)⟩

end Frame

/-- Spaces with a character of a token behind them. -/
def goesOn (s : List Char) : Bool :=
  s.head?.any isPySpace && (s.dropWhile isPySpace).head?.any isToken

/-- Behind a scheme, a match of `BEARER_PATTERN` goes over the credential.  A bare credential is
gone over by a match of `HEADER_PATTERN` in what `BEARER_PATTERN` has left, and no token follows
it, before which it could be the word `Bearer`. -/
def Frame.Covered (isalnum : Char → Bool) (F : Frame) : Prop :=
  if F.scheme.isSome then 0 < overrun (bearer isalnum) none 0 F.lead ['q']
  else F.quoted = false ∧
    0 < overrun (header isalnum) none 0 (emitted (bearer isalnum) none 0 F.lead ['!']) ['!'] ∧
    goesOn F.after = false

section

variable {isalnum : Char → Bool} {prev : Option Char} {c l : Char}
  {p q r r' s t u v w x y front : List Char} {F : Frame} {m : Matcher Char}

/-! ## What follows a credential -/

/-- No pattern begins at the head of the text, and no address goes on into it. -/
def Closing (s : List Char) : Prop :=
  ∀ c ∈ s.head?, isSchemeStart c = false ∧ isScheme c = false ∧ isToken c = false ∧ c ≠ ':'

theorem not_value_cases (h : isValue c = false) : isPySpace c = true ∨ c = ',' ∨ c = ';' := by
  simp only [isValue, Bool.and_eq_false_iff, Bool.not_eq_false', decide_eq_false_iff_not,
    not_not] at h
  tauto

theorem closing_of_not_value (h : ∀ c ∈ s.head?, isValue c = false) : Closing s := by
  intro c hc
  rcases not_value_cases (h c hc) with hspace | rfl | rfl
  · obtain ⟨-, htoken, -, -, hstart, hscheme, -, -, hcolon, -⟩ := space_classes hspace
    exact ⟨hstart, hscheme, htoken, hcolon⟩
  · decide +kernel
  · decide +kernel

theorem Frame.closing (F : Frame) : Closing F.after := by
  have hends := F.ends
  split at hends
  · intro c hc
    obtain rfl := Option.some.inj (hends.symm.trans hc)
    decide +kernel
  · exact closing_of_not_value hends

/-- No match begins at the head of the text. -/
def Idle (m : Matcher Char) (s : List Char) : Prop :=
  ∀ prev c t, s = c :: t → m prev s = none

theorem Closing.idle (h : Closing s) (isalnum : Char → Bool) :
    Idle (bearer isalnum) s ∧ Idle (header isalnum) s ∧ Idle urlPassword s := by
  refine ⟨fun prev c t hs ↦ ?_, fun prev c t hs ↦ ?_, fun prev c t hs ↦ ?_⟩
  · subst hs
    exact (matchers_none isalnum (h c rfl).1 prev t).1
  · subst hs
    exact (matchers_none isalnum (h c rfl).1 prev t).2.1
  · subst hs
    exact (matchers_none isalnum (h c rfl).1 prev t).2.2

theorem head_substitute (h : Idle m s) (prev : Option Char) :
    (substitute m prev 0 s).head? = s.head? := by
  cases s with
  | nil => rfl
  | cons c t => rw [substitute_cons (h prev c t rfl)]; rfl

theorem substitute_idle (h : Idle m s) (prev prev' : Option Char) :
    substitute m prev 0 s = substitute m prev' 0 s := by
  cases s with
  | nil => rfl
  | cons c t => rw [substitute_cons (h prev c t rfl), substitute_cons (h prev' c t rfl)]

theorem Closing.congr (h : Closing s) (heq : t.head? = s.head?) : Closing t :=
  fun c hc ↦ h c (heq ▸ hc)

/-! ## A character which is shown -/

theorem scan_starts (hm : ∀ c, isSchemeStart c = false → ∀ prev t, m prev (c :: t) = none)
    (hfront : ∀ c ∈ front, isSchemeStart c = false) (prev : Option Char) (r : List Char) :
    emitted m prev 0 front r = front ∧ overrun m prev 0 front r = 0 := by
  refine scan_none (fun p hp hne prev ↦ ?_) prev
  cases p with
  | nil => exact absurd rfl hne
  | cons c p => exact hm c (hfront c (hp.subset List.mem_cons_self)) prev (p ++ r)

/-- The letter is at the end of the text: no pattern begins with it. -/
theorem letter_idle (isalnum : Char → Bool) (hl : l = 'q' ∨ l = 'j') (hs : Closing s)
    (prev : Option Char) :
    bearer isalnum prev (l :: s) = none ∧ header isalnum prev (l :: s) = none ∧
      urlPassword prev (l :: s) = none := by
  have hletters : ("bearer".toList :: names).all (fun name ↦ name.head?.all fun k ↦
      'q' ∉ variants k && 'j' ∉ variants k) = true := by
    decide +kernel
  have heat : ∀ name ∈ "bearer".toList :: names, eat name (l :: s) = none := by
    intro name hname
    have hne : name ≠ [] := by
      rcases List.mem_cons.mp hname with rfl | hname
      · decide
      · exact names_ne_nil hname
    refine eat_none hne fun k hk ↦ ?_
    have hall := List.all_eq_true.mp hletters name hname
    rw [Option.mem_def.mp hk, Option.all_some, Bool.and_eq_true, decide_eq_true_eq,
      decide_eq_true_eq] at hall
    rcases hl with rfl | rfl
    · exact hall.1
    · exact hall.2
  refine ⟨?_, ?_, ?_⟩
  · unfold bearer bearerTail
    rw [heat _ List.mem_cons_self]
    exact ite_self _
  · have hfind : names.findSome? (headerNamed (l :: s)) = none := by
      refine List.findSome?_eq_none_iff.mpr fun name hname ↦ ?_
      rw [headerNamed, heat name (List.mem_cons_of_mem _ hname)]
      rfl
    unfold header
    rw [hfind]
    exact ite_self _
  · have hdrop : s.dropWhile isScheme = s := dropWhile_head fun c hc ↦ (hs c hc).2.1
    have hcolon : one (· = ':') s = none := by
      cases s with
      | nil => rfl
      | cons c t => exact if_neg (by simp [(hs c rfl).2.2.2])
    have hone : one isSchemeStart (l :: s) = some s := by
      rcases hl with rfl | rfl
      · rfl
      · rfl
    unfold urlPassword urlScheme
    rw [hone, Option.bind_some, hdrop, hcolon]
    rfl

theorem substitute_shown {out : List Char}
    (hm : ∀ c, isSchemeStart c = false → ∀ prev t, m prev (c :: t) = none)
    (hv : ∀ c ∈ v, isSchemeStart c = false) (hl : ∀ prev, m prev (l :: s) = none)
    (hscan : emitted m none 0 front (v ++ l :: s) = out ∧ overrun m none 0 front (v ++ l :: s) = 0) :
    substitute m none 0 (front ++ (v ++ l :: s)) = out ++ (v ++ l :: substitute m (some l) 0 s) := by
  obtain ⟨hemitted, hover⟩ := scan_starts hm hv (before none front) (l :: s)
  rw [substitute_append, hscan.1, hscan.2, substitute_append, hemitted, hover, substitute_cons (hl _)]

/-- The letter behind `v` stays in the text. -/
theorem shown {lead out₁ out₂ out₃ : List Char} (hv : ∀ c ∈ v, isSchemeStart c = false)
    (hs : Closing s)
    (h₁ : ∀ l, l = 'q' ∨ l = 'j' → emitted (bearer isalnum) none 0 lead (v ++ l :: s) = out₁ ∧
      overrun (bearer isalnum) none 0 lead (v ++ l :: s) = 0)
    (h₂ : ∀ l t, l = 'q' ∨ l = 'j' → t.head? = s.head? →
      emitted (header isalnum) none 0 out₁ (v ++ l :: t) = out₂ ∧
        overrun (header isalnum) none 0 out₁ (v ++ l :: t) = 0)
    (h₃ : ∀ t, emitted urlPassword none 0 out₂ (v ++ t) = out₃ ∧
      overrun urlPassword none 0 out₂ (v ++ t) = 0) :
    redactText isalnum (lead ++ (v ++ 'q' :: s)) ≠ redactText isalnum (lead ++ (v ++ 'j' :: s)) := by
  have hshown : ∀ l, l = 'q' ∨ l = 'j' →
      ∃ t, redactText isalnum (lead ++ (v ++ l :: s)) = out₃ ++ (v ++ l :: t) := by
    intro l hl
    obtain ⟨hbearer, hheader, -⟩ := hs.idle isalnum
    have hhead₁ := head_substitute hbearer (some l)
    have hs₁ := hs.congr hhead₁
    have hhead₂ := head_substitute (hs₁.idle isalnum).2.1 (some l)
    have hs₂ := hs₁.congr hhead₂
    refine ⟨substitute urlPassword (some l) 0 (substitute (header isalnum) (some l) 0
      (substitute (bearer isalnum) (some l) 0 s)), ?_⟩
    unfold redactText
    dsimp only
    rw [substitute_shown (fun c hc prev t ↦ (matchers_none isalnum hc prev t).1) hv
        (fun prev ↦ (letter_idle isalnum hl hs prev).1) (h₁ l hl),
      substitute_shown (fun c hc prev t ↦ (matchers_none isalnum hc prev t).2.1) hv
        (fun prev ↦ (letter_idle isalnum hl hs₁ prev).2.1) (h₂ l _ hl hhead₁),
      substitute_shown (fun c hc prev t ↦ (matchers_none isalnum hc prev t).2.2) hv
        (fun prev ↦ (letter_idle isalnum hl hs₂ prev).2.2) (h₃ _)]
  obtain ⟨t, ht⟩ := hshown 'q' (Or.inl rfl)
  obtain ⟨t', ht'⟩ := hshown 'j' (Or.inr rfl)
  intro heq
  rw [ht, ht'] at heq
  have hletter := (List.cons.inj (List.append_cancel_left (List.append_cancel_left heq))).1
  exact absurd hletter (by decide)

/-! ## Behind a character which is no separator -/

theorem bearer_ends (prev : Option Char) (p text left : List Char)
    (h : bearer isalnum prev p = some (text, left)) : text = "Bearer ".toList ++ redacted := by
  unfold bearer at h
  split at h
  · obtain ⟨rest, -, hrest⟩ := Option.map_eq_some_iff.mp h
    exact (Prod.mk.inj hrest).1.symm
  · cases h

/-- What `BEARER_PATTERN` leaves of a front ends with its last character or with the bracket of
a replacement. -/
theorem bearer_last (isalnum : Char → Bool) (u r : List Char) (c : Char) :
    ∃ out d, emitted (bearer isalnum) none 0 (u ++ [c]) r = out ++ [d] ∧ (d = c ∨ d = ']') := by
  rcases emitted_last bearer_ends (Nat.zero_le _) with ⟨out, hout⟩ | ⟨out, text, hout, rfl⟩
  · exact ⟨out, c, hout, Or.inl rfl⟩
  · refine ⟨out ++ "Bearer [REDACTED".toList, ']', ?_, Or.inr rfl⟩
    rw [hout, List.append_assoc]
    rfl

/-- No match of `BEARER_PATTERN` goes over a character which is in none of its classes. -/
theorem scan_quiet (isalnum : Char → Bool)
    (hc : isNameChar c = false ∧ isPySpace c = false ∧ isToken c = false)
    (u r r' : List Char) :
    emitted (bearer isalnum) none 0 u (c :: r) = emitted (bearer isalnum) none 0 u (c :: r') ∧
      overrun (bearer isalnum) none 0 u (c :: r) = 0 ∧
      overrun (bearer isalnum) none 0 u (c :: r') = 0 := by
  refine scan_within _ _ _ _ _ fun p _ hne prev ↦ ?_
  have htail : Decides bearerTail p fun r ↦ r.head? = some c :=
    decides_bearerTail fun r hr d hd ↦ by
      obtain rfl := Option.some.inj (hr.symm.trans hd)
      exact hc
  exact within_bearer htail hne rfl rfl prev

theorem scan_barred (hspace : isPySpace c = false) (hseparator : isSeparator c = false)
    (hr : Barred r) (hr' : Barred r') :
    emitted (header isalnum) prev 0 (u ++ [c]) r = emitted (header isalnum) prev 0 (u ++ [c]) r' ∧
      overrun (header isalnum) prev 0 (u ++ [c]) r = 0 ∧
      overrun (header isalnum) prev 0 (u ++ [c]) r' = 0 := by
  refine scan_within _ _ _ _ _ fun p hp hne prev ↦ ?_
  obtain ⟨p, rfl⟩ := (suffix_singleton hp).resolve_left hne
  exact within_header (headerDecides_barred hspace hseparator p) hne hr hr' prev

theorem scan_url (front : List Char) (hr : UrlStops r) (hr' : UrlStops r') :
    emitted urlPassword none 0 front r = emitted urlPassword none 0 front r' ∧
      overrun urlPassword none 0 front r = 0 ∧ overrun urlPassword none 0 front r' = 0 :=
  scan_within _ _ _ _ _ fun _ _ _ prev ↦ within_urlPassword hr hr' prev

/-- A space and a slash behind a character which is no separator: the letter is shown. -/
theorem shown_barred (isalnum : Char → Bool) (u : List Char) (hspace : isPySpace c = false)
    (hseparator : isSeparator c = false) (hw : w ≠ []) (hspaces : ∀ c ∈ w, isPySpace c = true)
    (hs : Closing s) {out : List Char}
    (hbearer : ∀ l, l = 'q' ∨ l = 'j' →
      emitted (bearer isalnum) none 0 (u ++ [c]) (w ++ ['/'] ++ l :: s) = out ∧
        overrun (bearer isalnum) none 0 (u ++ [c]) (w ++ ['/'] ++ l :: s) = 0) :
    redactText isalnum (u ++ [c] ++ (w ++ ['/'] ++ 'q' :: s)) ≠
      redactText isalnum (u ++ [c] ++ (w ++ ['/'] ++ 'j' :: s)) := by
  obtain ⟨out', d, hout, hd⟩ := bearer_last isalnum u (w ++ ['/'] ++ 'q' :: s) c
  rw [(hbearer 'q' (Or.inl rfl)).1] at hout
  subst hout
  have hdspace : isPySpace d = false ∧ isSeparator d = false := by
    rcases hd with rfl | rfl
    · exact ⟨hspace, hseparator⟩
    · decide
  have hbarred : ∀ t, Barred (w ++ ['/'] ++ t) := by
    intro t
    exact ⟨w, '/', t, by rw [List.append_assoc]; rfl, hw, hspaces, by decide, by decide⟩
  have hstops : ∀ t, UrlStops (w ++ ['/'] ++ t) := by
    intro t
    cases w with
    | nil => exact absurd rfl hw
    | cons b w => exact urlStops_space (hspaces b List.mem_cons_self) _
  have hv : ∀ c ∈ w ++ ['/'], isSchemeStart c = false := by
    intro c hc
    rcases List.mem_append.mp hc with hc | hc
    · exact (space_classes (hspaces c hc)).2.2.2.2.1
    · rw [List.mem_singleton.mp hc]
      decide
  exact shown hv hs hbearer
    (fun l t _ _ ↦ (scan_barred hdspace.1 hdspace.2 (hbarred (l :: t)) (hbarred [])).imp_right
      And.left)
    fun t ↦ (scan_url _ (hstops t) (hstops [])).imp_right And.left

/-! ## Credentials in quotes -/

theorem scan_quote (u r r' : List Char) :
    emitted (bearer isalnum) none 0 (u ++ ['"']) r = emitted (bearer isalnum) none 0 (u ++ ['"']) r' ∧
      overrun (bearer isalnum) none 0 (u ++ ['"']) r = 0 := by
  have hquote : isNameChar '"' = false ∧ isPySpace '"' = false ∧ isToken '"' = false := by
    decide +kernel
  obtain ⟨hemitted, hover, hover'⟩ := scan_quiet isalnum hquote u r r'
  have hend : ∀ r, emitted (bearer isalnum) (before none u) 0 ['"'] r = ['"'] ∧
      overrun (bearer isalnum) (before none u) 0 ['"'] r = 0 := by
    intro r
    refine scan_starts (fun c hc prev t ↦ (matchers_none isalnum hc prev t).1) (fun c hc ↦ ?_) _ r
    rw [List.mem_singleton.mp hc]
    decide
  rw [(emitted_append _ none 0 u ['"'] r).1, (emitted_append _ none 0 u ['"'] r').1,
    (emitted_append _ none 0 u ['"'] r).2, List.singleton_append, List.singleton_append, hemitted,
    hover, hover', (hend r).1, (hend r').1, (hend r).2]
  exact ⟨rfl, rfl⟩

theorem not_hidden_of_quoted (hscheme : F.scheme = none) (hquoted : F.quoted = true) :
    ¬ F.Hidden isalnum := by
  intro hhidden
  have hcredential : ∀ l, l = 'q' ∨ l = 'j' → F.Credential [' ', '/', l] := by
    have hholds : ∀ c, F.holds c = decide (c ≠ '"') := by
      intro c
      rw [Frame.holds, hscheme, hquoted]
      rfl
    rintro l (rfl | rfl)
    · exact Frame.credential_of_all hholds (by decide) (by decide)
    · exact Frame.credential_of_all hholds (by decide) (by decide)
  have hlead : F.lead = F.before ++ F.quote ++ F.name ++ F.quote ++ F.spaceBefore ++
      F.separator :: F.spaceAfter ++ ['"'] := by
    simp [Frame.lead, Frame.quote, Frame.schemePart, hscheme, hquoted]
  have hshown := shown_barred isalnum (c := '"') (w := [' ']) (s := F.after)
    (F.before ++ F.quote ++ F.name ++ F.quote ++ F.spaceBefore ++ F.separator :: F.spaceAfter)
    (by decide) (by decide) (by simp) (fun c hc ↦ by rw [List.mem_singleton.mp hc]; decide) F.closing
    (fun l _ ↦ scan_quote _ _ [])
  rw [← hlead] at hshown
  exact hshown (hhidden _ _ (hcredential 'q' (Or.inl rfl)) (hcredential 'j' (Or.inr rfl)))

/-! ## Credentials behind a scheme -/

/-- The characters of a token, and what ends it. -/
structure TokenEnded (x s : List Char) : Prop where
  ne_nil : x ≠ []
  token : ∀ c ∈ x, isToken c = true
  ends : ∀ c ∈ s.head?, isToken c = false

theorem isPySpace_of_isToken (h : isToken c = true) : isPySpace c = false := by
  rw [← Bool.not_eq_true]
  intro hspace
  rw [(space_classes hspace).2.1] at h
  cases h

theorem bearer_scheme (hc : isPySpace c = false) (hw : w ≠ []) (hspaces : ∀ c ∈ w, isPySpace c = true)
    (u : List Char) : DecidesOrOver bearerTail (u ++ [c])
      fun z s ↦ ∃ x, z = w ++ x ∧ TokenEnded x s := by
  have hhead := head_spaces hw hspaces
  have heat : Decides (eat "bearer".toList) (u ++ [c]) fun r ↦ ∃ t, r = w ++ t := by
    refine decides_eat fun r hr d hd ↦ ?_
    obtain ⟨t, rfl⟩ := hr
    exact not_variant_of_not_nameChar (space_classes (hhead t d hd)).1 List.mem_cons_self
  cases heat with
  | no h =>
      refine .no fun z s hz ↦ ?_
      obtain ⟨x, rfl, -⟩ := hz
      rw [bearerTail, h _ ⟨x ++ s, List.append_assoc _ _ _⟩]
      rfl
  | yes q hq h =>
      rcases suffix_singleton hq with rfl | ⟨q, rfl⟩
      · refine .past fun z s hz ↦ ?_
        obtain ⟨x, rfl, hne, htoken, hends⟩ := hz
        have hspace : many isPySpace (w ++ (x ++ s)) = some (x ++ s) := by
          refine many_all hw hspaces fun d hd ↦ ?_
          cases x with
          | nil => exact absurd rfl hne
          | cons b x =>
              obtain rfl := Option.some.inj hd
              exact isPySpace_of_isToken (htoken _ List.mem_cons_self)
        rw [List.append_assoc w, bearerTail, h _ ⟨x ++ s, rfl⟩, Option.bind_some, List.nil_append,
          hspace, Option.bind_some, many_all hne htoken hends]
      · have hspace : Decides (many isPySpace) q fun r ↦ r.head? = some c :=
          decides_many fun r hr d hd ↦ by
            obtain rfl := Option.some.inj (hr.symm.trans hd)
            exact hc
        cases hspace with
        | no h' =>
            refine .no fun z s hz ↦ ?_
            obtain ⟨x, rfl, -⟩ := hz
            rw [List.append_assoc w, bearerTail, h _ ⟨x ++ s, rfl⟩, Option.bind_some,
              List.append_assoc q, h' _ rfl]
            rfl
        | yes q' hq' h' =>
            have htail : ∀ t, bearerTail (u ++ [c] ++ (w ++ t)) =
                many isToken (q' ++ [c] ++ (w ++ t)) := by
              intro t
              rw [bearerTail, h _ ⟨t, rfl⟩, Option.bind_some, List.append_assoc q, h' _ rfl,
                Option.bind_some, List.append_assoc]
            have hmany : Decides (many isToken) (q' ++ [c]) fun r ↦ ∃ t, r = w ++ t :=
              decides_many fun r hr d hd ↦ by
                obtain ⟨t, rfl⟩ := hr
                exact (space_classes (hhead t d hd)).2.1
            have hsuffix : q' ++ [c] <:+ u ++ [c] := by
              obtain ⟨z, rfl⟩ := hq'
              obtain ⟨z', hz'⟩ := hq
              exact ⟨z' ++ z, by rw [← hz']; simp⟩
            cases hmany with
            | no h'' =>
                refine .no fun z s hz ↦ ?_
                obtain ⟨x, rfl, -⟩ := hz
                rw [List.append_assoc w, htail, h'' _ ⟨x ++ s, rfl⟩]
            | yes q'' hq'' h'' =>
                refine .yes q'' (hq''.trans hsuffix) fun z s hz ↦ ?_
                obtain ⟨x, rfl, -⟩ := hz
                rw [List.append_assoc w, htail, h'' _ ⟨x ++ s, rfl⟩]

theorem over_bearer {good : List Char → List Char → Prop} (h : DecidesOrOver bearerTail front good)
    (hfront : front ≠ []) (hx : good x s) (hy : good y t) (prev : Option Char) :
    WithinOrOver front x s y t (bearer isalnum prev (front ++ (x ++ s)))
      (bearer isalnum prev (front ++ (y ++ t))) := by
  unfold bearer boundary
  rw [List.head?_append_of_ne_nil front hfront, List.head?_append_of_ne_nil front hfront]
  split
  · cases h with
    | no h =>
        rw [h x s hx, h y t hy]
        exact .within .none
    | yes q hq h =>
        have hlt := bearerTail_lt (h x s hx)
        rw [h x s hx, h y t hy]
        refine .within (.some _ q ?_)
        simp only [List.length_append] at hlt
        omega
    | past h =>
        rw [h x s hx, h y t hy]
        exact .past _
  · exact .within .none

theorem scan_scheme (isalnum : Char → Bool) (u : List Char) (hc : isPySpace c = false)
    (hw : w ≠ []) (hspaces : ∀ c ∈ w, isPySpace c = true) (hx : TokenEnded x s) (hy : TokenEnded y t) :
    emitted (bearer isalnum) none 0 (u ++ [c]) (w ++ (x ++ s)) =
        emitted (bearer isalnum) none 0 (u ++ [c]) (w ++ (y ++ t)) ∧
      (overrun (bearer isalnum) none 0 (u ++ [c]) (w ++ (x ++ s)) = 0 ∧
          overrun (bearer isalnum) none 0 (u ++ [c]) (w ++ (y ++ t)) = 0 ∨
        overrun (bearer isalnum) none 0 (u ++ [c]) (w ++ (x ++ s)) = w.length + x.length ∧
          overrun (bearer isalnum) none 0 (u ++ [c]) (w ++ (y ++ t)) = w.length + y.length) := by
  have hscan := scan_over (bearer isalnum) none (u ++ [c]) (w ++ x) s (w ++ y) t
    fun p hp hne prev ↦ by
      obtain ⟨p, rfl⟩ := (suffix_singleton hp).resolve_left hne
      exact over_bearer (bearer_scheme hc hw hspaces p) hne ⟨x, rfl, hx⟩ ⟨y, rfl, hy⟩ prev
  rw [List.append_assoc w, List.append_assoc w, List.length_append, List.length_append] at hscan
  exact hscan

/-- The scan of the whole lead, from that of the scheme. -/
theorem scan_lead (isalnum : Char → Bool) (front r : List Char) {n : ℕ}
    (hspaces : ∀ c ∈ w, isPySpace c = true)
    (h : overrun (bearer isalnum) none 0 front (w ++ r) = 0 ∨
      overrun (bearer isalnum) none 0 front (w ++ r) = w.length + n) (hn : 0 < n) :
    (0 < overrun (bearer isalnum) none 0 (front ++ w) r ↔
        overrun (bearer isalnum) none 0 front (w ++ r) = w.length + n) ∧
      (overrun (bearer isalnum) none 0 front (w ++ r) = w.length + n →
        overrun (bearer isalnum) none 0 (front ++ w) r = n ∧
          emitted (bearer isalnum) none 0 (front ++ w) r =
            emitted (bearer isalnum) none 0 front (w ++ r)) := by
  obtain ⟨hemitted, hover⟩ := emitted_append (bearer isalnum) none 0 front w r
  rcases h with h | h
  · have hzero : overrun (bearer isalnum) none 0 (front ++ w) r = 0 := by
      rw [hover, h]
      exact (scan_starts (fun c hc prev t ↦ (matchers_none isalnum hc prev t).1)
        (fun c hc ↦ (space_classes (hspaces c hc)).2.2.2.2.1) _ r).2
    rw [hzero, h]
    exact ⟨iff_of_false (lt_irrefl 0) (by omega), fun h ↦ absurd h (by omega)⟩
  · have hn' : overrun (bearer isalnum) none 0 (front ++ w) r = n := by
      rw [hover, h]
      exact (emitted_skip _ _ w r).2
    refine ⟨?_, fun _ ↦ ⟨hn', ?_⟩⟩
    · rw [hn', h]
      exact iff_of_true hn rfl
    · rw [hemitted, h, (emitted_skip _ _ w r).1, List.append_nil]

theorem Frame.lead_scheme {word space : List Char} (hscheme : F.scheme = some (word, space)) :
    ∃ u c, F.lead = u ++ [c] ++ space ∧ isPySpace c = false ∧ isSeparator c = false ∧ space ≠ [] ∧
      ∀ c ∈ space, isPySpace c = true := by
  obtain ⟨-, hword, hchars, hspace, hspaces⟩ := F.isScheme word space hscheme
  rcases List.eq_nil_or_concat word with rfl | ⟨word, c, rfl⟩
  · exact absurd rfl hword
  have hc := hchars c (by simp)
  simp only [isSchemeWord, Bool.and_eq_true, Bool.not_eq_true'] at hc
  refine ⟨F.before ++ F.quote ++ F.name ++ F.quote ++ F.spaceBefore ++
    F.separator :: (F.spaceAfter ++ F.quote ++ word), c, ?_, hc.1.1.1.1, hc.1.1.1.2, hspace, hspaces⟩
  simp [Frame.lead, Frame.schemePart, hscheme]

theorem isToken_ends (F : Frame) : ∀ c ∈ F.after.head?, isToken c = false :=
  fun c hc ↦ (F.closing c hc).2.2.1

theorem hidden_iff_of_scheme (hscheme : F.scheme.isSome = true) :
    F.Hidden isalnum ↔ 0 < overrun (bearer isalnum) none 0 F.lead ['q'] := by
  obtain ⟨⟨word, space⟩, hsome⟩ := Option.isSome_iff_exists.mp hscheme
  obtain ⟨u, c, hlead, hc, hseparator, hw, hspaces⟩ := F.lead_scheme hsome
  have hholds : ∀ c, F.holds c = isToken c := fun c ↦ if_pos hscheme
  have hended : ∀ x, F.Credential x → TokenEnded x F.after := fun x hx ↦
    ⟨hx.ne_nil, fun c hc ↦ hholds c ▸ hx.holds c hc, isToken_ends F⟩
  have hq : TokenEnded ['q'] [] := by
    refine ⟨List.cons_ne_nil _ _, fun c hc ↦ ?_, fun c hc ↦ by cases hc⟩
    rw [List.mem_singleton.mp hc]
    decide
  have hscan : ∀ x, F.Credential x → _ := fun x hx ↦
    scan_scheme isalnum u hc hw hspaces (hended x hx) hq
  have hleadq := scan_lead isalnum (u ++ [c]) ['q'] (n := 1) hspaces
  rw [hlead]
  constructor
  · intro hhidden
    by_contra hnot
    have hcredential : ∀ l, l = 'q' ∨ l = 'j' → F.Credential ['/', l] := by
      rintro l (rfl | rfl)
      · exact Frame.credential_of_all hholds (by decide) (by decide)
      · exact Frame.credential_of_all hholds (by decide) (by decide)
    have hzero : overrun (bearer isalnum) none 0 (u ++ [c]) (space ++ ['q']) = 0 := by
      rcases (hscan _ (hcredential 'q' (Or.inl rfl))).2 with ⟨-, h⟩ | ⟨-, h⟩
      · exact h
      · exact absurd (((hleadq (Or.inr h)) Nat.one_pos).1.mpr h) hnot
    have hshown := shown_barred isalnum u hc hseparator hw hspaces F.closing
      (fun l hl ↦ by
        obtain ⟨hemitted, hover⟩ := hscan _ (hcredential l hl)
        have hover' := hover.resolve_right fun h ↦ by
          have hq' := hzero.symm.trans h.2
          simp at hq'
        have htext : space ++ ['/'] ++ l :: F.after = space ++ (['/', l] ++ F.after) := by simp
        rw [htext]
        exact ⟨hemitted, hover'.1⟩)
    have htext : ∀ l, F.text ['/', l] = u ++ [c] ++ (space ++ ['/'] ++ l :: F.after) := by
      intro l
      rw [Frame.text, hlead]
      simp
    rw [← htext, ← htext] at hshown
    exact hshown (hhidden _ _ (hcredential 'q' (Or.inl rfl)) (hcredential 'j' (Or.inr rfl)))
  · intro hcovered
    have hpass : ∀ x, F.Credential x → substitute (bearer isalnum) none 0 (F.text x) =
        emitted (bearer isalnum) none 0 (u ++ [c]) (space ++ ['q']) ++
          substitute (bearer isalnum) none 0 F.after := by
      intro x hx
      obtain ⟨hemitted, hover⟩ := hscan x hx
      have hone : overrun (bearer isalnum) none 0 (u ++ [c]) (space ++ ['q']) = space.length + 1 := by
        rcases hover with ⟨-, h⟩ | ⟨-, h⟩
        · exact ((hleadq (Or.inl h)) Nat.one_pos).1.mp hcovered
        · exact h
      have hover' := (hover.resolve_left fun h ↦ by
        have hq' := h.2.symm.trans hone
        omega).1
      obtain ⟨hx', hout⟩ := (scan_lead isalnum _ _ hspaces (Or.inr hover')
        (List.length_pos_of_ne_nil hx.ne_nil)).2 hover'
      rw [Frame.text, hlead, substitute_append, hx', hout, hemitted, substitute_skip]
      exact congrArg _ (substitute_idle (F.closing.idle isalnum).1 _ _)
    intro x y hx hy
    unfold redactText
    rw [hpass x hx, hpass y hy]

end

end S3mp.Redaction
