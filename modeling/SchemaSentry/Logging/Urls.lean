import SchemaSentry.Logging.Patterns
/-!
# Schema Sentry — passwords of URLs

What `_URL_CREDENTIAL` leaves of a text (`redactUrls_cases`). A password
never matters for the text around it (`redactUrls_password`), and a text
is redacted part by part where no credential lies across the parts
(`redactUrls_append`).
-/

namespace SchemaSentry

open Lib

variable [PyText] {text front back before pre pre' secret secret' rest rest' t : List Char} {c x : Char}

/-! ## Credentials -/

/-- A text begins with `scheme://user:password@`. -/
structure UrlCredential (text pre secret rest : List Char) : Prop where
  eq : text = pre ++ (secret ++ '@' :: rest)
  opens : UrlOpener pre
  ne_nil : secret ≠ []
  all : ∀ x ∈ secret, passwordChar x = true

theorem not_passwordChar_at : passwordChar '@' = false := by simp [passwordChar]

/-- An opener holds two colons, and ends with the second. -/
theorem UrlOpener.colons (h : UrlOpener pre) :
    pre.count ':' = 2 ∧ ∃ t, pre = t ++ [':'] := by
  obtain ⟨c, scheme, user, rfl, hc, hscheme, -, huser⟩ := h
  have hscheme' : ':' ∉ c :: scheme := by
    intro hmem
    have hall : ∀ x ∈ c :: scheme, schemeChar x = true :=
      List.forall_mem_cons.2 ⟨by rw [schemeChar, hc, Bool.true_or, Bool.true_or], hscheme⟩
    have hcolon := hall ':' hmem
    revert hcolon
    decide
  have huser' : ':' ∉ user := by
    intro hmem
    have hcolon := huser ':' hmem
    simp [userChar] at hcolon
  refine ⟨?_, c :: scheme ++ ':' :: '/' :: '/' :: user, by simp⟩
  rw [List.count_append, List.count_eq_zero.2 hscheme']
  simp [List.count_eq_zero.2 huser']

theorem UrlCredential.append (h : UrlCredential text pre secret rest) (back : List Char) :
    UrlCredential (text ++ back) pre secret (rest ++ back) :=
  ⟨by rw [h.eq]; simp, h.opens, h.ne_nil, h.all⟩

/-- A credential ends in the front of a text, or lies across. -/
theorem UrlCredential.split (h : UrlCredential (front ++ back) pre secret rest) :
    (∃ l, UrlCredential front pre secret l ∧ rest = l ++ back) ∨
      ∃ t, back = t ++ '@' :: rest ∧ pre ++ secret = front ++ t := by
  have heq : front ++ back = (pre ++ secret) ++ '@' :: rest := by
    rw [h.eq, List.append_assoc]
  rcases List.append_eq_append_iff.1 heq with ⟨t, hfront, hback⟩ | ⟨t, hfront, hrest⟩
  · exact Or.inr ⟨t, hback, hfront⟩
  · rcases t with _ | ⟨y, l⟩
    · rw [List.append_nil] at hfront
      exact Or.inr ⟨[], hrest.symm, by rw [hfront, List.append_nil]⟩
    · rw [List.cons_append] at hrest
      obtain ⟨rfl, hl⟩ := List.cons.inj hrest
      refine Or.inl ⟨l, ⟨?_, h.opens, h.ne_nil, h.all⟩, hl⟩
      rw [hfront, List.append_assoc]

/-! ## The pass -/

theorem subFrom_urlCredential (before text : List Char) :
    urlCredential.subFrom redactedUrl 0 before text = redactUrls text := by
  refine Regex.subFrom_congr (R := fun _ _ => True) (fun b b' _ text => ?_) (fun _ _ _ _ => trivial)
    trivial 0 text
  rw [Option.ext fun m => urlCredential_iff.trans urlCredential_iff.symm]

theorem redactUrls_of_credential (h : UrlCredential text pre secret rest) :
    redactUrls text = pre ++ (REDACTED.toList ++ '@' :: redactUrls rest) := by
  have hm : urlCredential.matchAt [] text = some ⟨pre ++ (secret ++ ['@']),
      [("prefix", pre), ("secret", secret), ("suffix", ['@'])]⟩ :=
    urlCredential_iff.2 ⟨pre, secret, rest, h.eq, h.opens, h.ne_nil, h.all, rfl⟩
  have htext : text = (pre ++ (secret ++ ['@'])) ++ rest := by
    rw [h.eq]
    simp
  rw [htext] at hm ⊢
  have hsub := Regex.subFrom_of_some (f := redactedUrl) (m := ⟨pre ++ (secret ++ ['@']), _⟩) hm
    (by simp)
  rw [subFrom_urlCredential, subFrom_urlCredential] at hsub
  have hput : redactedUrl ⟨pre ++ (secret ++ ['@']), [("prefix", pre), ("secret", secret),
      ("suffix", ['@'])]⟩ = pre ++ (REDACTED.toList ++ ['@']) := rfl
  rw [hsub, hput, List.append_assoc, List.append_assoc]
  rfl

theorem redactUrls_of_none (h : ∀ pre secret rest, ¬ UrlCredential (c :: text) pre secret rest) :
    redactUrls (c :: text) = c :: redactUrls text := by
  have hnone : urlCredential.matchAt [] (c :: text) = none := by
    by_contra hsome
    obtain ⟨m, hm⟩ := Option.ne_none_iff_exists'.1 hsome
    obtain ⟨pre, secret, rest, heq, hopens, hne, hall, -⟩ := urlCredential_iff.1 hm
    exact h pre secret rest ⟨heq, hopens, hne, hall⟩
  rw [redactUrls, Regex.sub, Regex.subFrom_of_none hnone, subFrom_urlCredential]

/-- A text goes on behind a credential at its beginning, or behind a character. -/
theorem redactUrls_induction {motive : List Char → Prop} (nil : motive [])
    (credential : ∀ {text pre secret rest}, UrlCredential text pre secret rest → motive rest →
      motive text)
    (none : ∀ {c text}, (∀ pre secret rest, ¬ UrlCredential (c :: text) pre secret rest) →
      motive text → motive (c :: text)) (text : List Char) : motive text := by
  induction hn : text.length using Nat.strong_induction_on generalizing text with
  | _ n ih =>
    rcases text with _ | ⟨c, text⟩
    · exact nil
    · by_cases hsome : ∃ pre secret rest, UrlCredential (c :: text) pre secret rest
      · obtain ⟨pre, secret, rest, hcred⟩ := hsome
        refine credential hcred (ih rest.length ?_ rest rfl)
        rw [← hn, hcred.eq]
        simp only [List.length_append, List.length_cons]
        omega
      · have hlen : text.length < n := by
          rw [← hn, List.length_cons]
          omega
        exact none (fun pre secret rest hcred => hsome ⟨pre, secret, rest, hcred⟩)
          (ih text.length hlen text rfl)

/-- What no credential can end in stays as it is. -/
theorem redactUrls_of_not_mem (h : '@' ∉ text) : redactUrls text = text := by
  induction text with
  | nil => rfl
  | cons c text ih =>
    rw [redactUrls_of_none, ih fun hmem => h (List.mem_cons_of_mem _ hmem)]
    intro pre secret rest hcred
    refine h ?_
    rw [hcred.eq]
    simp

/-- Where a text begins with no letter, its beginning stays. -/
theorem head?_redactUrls (h : ∀ x ∈ text.head?, isLetter x = false) :
    (redactUrls text).head? = text.head? := by
  rcases text with _ | ⟨c, text⟩
  · rfl
  · rw [redactUrls_of_none]
    · rfl
    · intro pre secret rest hcred
      obtain ⟨d, scheme, user, rfl, hd, -⟩ := hcred.opens
      obtain rfl : c = d := by
        have heq := hcred.eq
        simp only [List.cons_append, List.cons.injEq] at heq
        exact heq.1
      rw [h c rfl] at hd
      cases hd

theorem redactUrls_ne_nil (h : text ≠ []) : redactUrls text ≠ [] := by
  rcases text with _ | ⟨c, text⟩
  · exact absurd rfl h
  · by_cases hsome : ∃ pre secret rest, UrlCredential (c :: text) pre secret rest
    · obtain ⟨pre, secret, rest, hcred⟩ := hsome
      rw [redactUrls_of_credential hcred]
      simp
    · rw [redactUrls_of_none fun pre secret rest hcred => hsome ⟨pre, secret, rest, hcred⟩]
      exact List.cons_ne_nil _ _

/-- What holds of a text's characters and of the mark holds of what is left. -/
theorem forall_mem_redactUrls {P : Char → Prop} (hmark : ∀ x ∈ REDACTED.toList, P x)
    (h : ∀ x ∈ text, P x) : ∀ x ∈ redactUrls text, P x := by
  induction text using redactUrls_induction with
  | nil => exact fun x hx => nomatch hx
  | @credential text pre secret rest hcred ih =>
    have hpart : ∀ x, x ∈ pre ∨ x = '@' ∨ x ∈ rest → P x := by
      intro x hx
      refine h x ?_
      rw [hcred.eq, List.mem_append, List.mem_append, List.mem_cons]
      tauto
    rw [redactUrls_of_credential hcred]
    intro x hx
    rw [List.mem_append, List.mem_append, List.mem_cons] at hx
    rcases hx with hx | hx | hx | hx
    · exact hpart x (Or.inl hx)
    · exact hmark x hx
    · exact hpart x (Or.inr (Or.inl hx))
    · exact ih (fun y hy => hpart y (Or.inr (Or.inr hy))) x hx
  | none hnone ih =>
    obtain ⟨hc, htext⟩ := List.forall_mem_cons.1 h
    rw [redactUrls_of_none hnone]
    exact List.forall_mem_cons.2 ⟨hc, ih htext⟩

/-! ## Texts part by part -/

/-- A credential lies across the end of `front`. -/
def UrlAcross (front back : List Char) : Prop :=
  ∃ l text pre secret rest, front ++ back = l ++ text ∧ UrlCredential text pre secret rest ∧
    l.length < front.length ∧ rest.length < back.length

/-- A credential's password begins in `front`, or right behind it, and lies across. -/
def PasswordAcross (front back : List Char) : Prop :=
  ∃ l text pre secret rest, front ++ back = l ++ text ∧ UrlCredential text pre secret rest ∧
    (l ++ pre).length ≤ front.length ∧ rest.length < back.length

/-- What is left of a front keeps apart from the back. -/
theorem UrlAcross.of_suffix {l : List Char} (h : UrlAcross front back) :
    UrlAcross (l ++ front) back := by
  obtain ⟨l', text, pre, secret, rest, htext, hcred, hl, hrest⟩ := h
  refine ⟨l ++ l', text, pre, secret, rest, ?_, hcred, ?_, hrest⟩
  · rw [List.append_assoc, htext, List.append_assoc]
  · rw [List.length_append, List.length_append]
    omega

/-- **A text is redacted part by part** where no credential lies across. -/
theorem redactUrls_append (h : ¬ UrlAcross front back) :
    redactUrls (front ++ back) = redactUrls front ++ redactUrls back := by
  induction front using redactUrls_induction with
  | nil => rfl
  | @credential front pre secret rest hcred ih =>
    have hrest : ¬ UrlAcross rest back := by
      have hfront : front = (pre ++ (secret ++ ['@'])) ++ rest := by
        rw [hcred.eq]
        simp
      rw [hfront] at h
      exact fun hacross => h hacross.of_suffix
    rw [redactUrls_of_credential (hcred.append back), redactUrls_of_credential hcred, ih hrest]
    simp
  | @none c front hnone ih =>
    rw [redactUrls_of_none hnone, List.cons_append, redactUrls_of_none,
      ih fun hacross => h (hacross.of_suffix (l := [c]))]
    · rfl
    · intro pre secret rest hcred
      have hcred : UrlCredential (c :: front ++ back) pre secret rest := hcred
      rcases hcred.split with ⟨l, hfront, -⟩ | ⟨t, hback, -⟩
      · exact hnone pre secret l hfront
      · refine h ⟨[], _, pre, secret, rest, rfl, hcred, ?_, ?_⟩
        · simp
        · rw [hback, List.length_append, List.length_cons]
          omega

theorem UrlAcross.mem (h : UrlAcross front back) : '@' ∈ back := by
  obtain ⟨l, text, pre, secret, rest, htext, hcred, -, hrest⟩ := h
  have hend : '@' :: rest <:+ front ++ back := by
    rw [htext, hcred.eq]
    exact ⟨l ++ (pre ++ secret), by simp⟩
  have hback := List.suffix_of_suffix_length_le hend (List.suffix_append front back)
    (by rw [List.length_cons]; omega)
  exact hback.subset List.mem_cons_self

/-- A text no credential can end in goes behind another as it is. -/
theorem redactUrls_append_of_not_mem (h : '@' ∉ back) :
    redactUrls (front ++ back) = redactUrls front ++ back := by
  rw [redactUrls_append fun hacross => h hacross.mem, redactUrls_of_not_mem h]

/-- The last character of a text stays. -/
theorem getLast?_redactUrls (text : List Char) : (redactUrls text).getLast? = text.getLast? := by
  induction text using redactUrls_induction with
  | nil => rfl
  | @credential text pre secret rest hcred ih =>
    rw [redactUrls_of_credential hcred, hcred.eq, List.getLast?_append_of_ne_nil _ (by simp),
      List.getLast?_append_of_ne_nil _ (by simp), List.getLast?_append_of_ne_nil _ (by simp),
      List.getLast?_append_of_ne_nil _ (by simp), List.getLast?_cons, List.getLast?_cons, ih]
  | none hnone ih => rw [redactUrls_of_none hnone, List.getLast?_cons, List.getLast?_cons, ih]

/-! ## Passwords -/

section Passwords

variable [PyText.Lawful] [PyWord] [PyWord.Lawful]

theorem UrlOpener.all (h : UrlOpener pre) : ∀ x ∈ pre, passwordChar x = true := by
  obtain ⟨c, scheme, user, rfl, hc, hscheme, -, huser⟩ := h
  have hplain : ∀ x, schemeChar x = true → passwordChar x = true := by
    intro x hx
    refine passwordChar_of_plainChar (plainChar_of_schemeChar hx) ?_
    rintro rfl
    revert hx
    decide
  have hsign : ∀ x ∈ [':', '/'], passwordChar x = true := by
    intro x hx
    refine passwordChar_of_plainChar ?_ ?_ <;> revert x <;> decide
  have hfront : schemeChar c = true := by rw [schemeChar, hc, Bool.true_or, Bool.true_or]
  have huser' : ∀ x ∈ user, passwordChar x = true := by
    intro x hx
    have hx := huser x hx
    simp only [userChar, Bool.and_eq_true, decide_eq_true_eq, List.mem_cons] at hx
    have hne : x ≠ '@' := by tauto
    simp only [passwordChar, hx.2, decide_eq_true hne, Bool.and_self]
  intro x hx
  simp only [List.cons_append, List.mem_cons, List.mem_append, List.not_mem_nil, or_false] at hx
  rcases hx with rfl | hx | rfl | rfl | rfl | hx | rfl
  · exact hplain x hfront
  · exact hplain x (hscheme x hx)
  · exact hsign ':' (by decide)
  · exact hsign '/' (by decide)
  · exact hsign '/' (by decide)
  · exact huser' x hx
  · exact hsign ':' (by decide)

theorem UrlCredential.front_all (h : UrlCredential text pre secret rest) :
    ∀ x ∈ pre ++ secret, passwordChar x = true := by
  intro x hx
  rcases List.mem_append.1 hx with hx | hx
  · exact h.opens.all x hx
  · exact h.all x hx

/-- A credential that reaches over an opener begins before its password, and
ends behind it whatever it is. -/
theorem UrlCredential.swap {b v v' t : List Char} (hpre : UrlOpener pre)
    (hv : ∀ x ∈ v, passwordChar x = true) (hv' : v' ≠ [] ∧ ∀ x ∈ v', passwordChar x = true)
    (h : UrlCredential text pre' secret rest) (hback : pre ++ (v ++ '@' :: b) = t ++ '@' :: rest)
    (hfront : pre' ++ secret = front ++ t) :
    rest = b ∧ ∃ secret', UrlCredential (front ++ (pre ++ (v' ++ '@' :: b))) pre' secret' b := by
  -- the credential ends at the first `@`, behind the password
  have ht : ∀ x ∈ t, passwordChar x = true := fun x hx =>
    h.front_all x (by rw [hfront]; exact List.mem_append_right _ hx)
  have hpv : ∀ x ∈ pre ++ v, passwordChar x = true := by
    intro x hx
    rcases List.mem_append.1 hx with hx | hx
    · exact hpre.all x hx
    · exact hv x hx
  rw [← List.append_assoc] at hback
  obtain ⟨rfl, hrest⟩ := append_inj_of_class hpv (ends_cons not_passwordChar_at) ht
    (ends_cons not_passwordChar_at) hback
  obtain rfl : b = rest := (List.cons.inj hrest).2
  rw [← List.append_assoc] at hfront
  -- the opener does not reach into the password: it would hold a third colon
  obtain ⟨s, hs, rfl⟩ : ∃ s, front ++ pre = pre' ++ s ∧ secret = s ++ v := by
    rcases List.append_eq_append_iff.1 hfront with ⟨s, hs, hsecret⟩ | ⟨s, hs, hsecret⟩
    · exact ⟨s, hs, hsecret⟩
    · by_cases hnil : s = []
      · rw [hnil, List.append_nil] at hs
        rw [hnil, List.nil_append] at hsecret
        exact ⟨[], by rw [hs, List.append_nil], hsecret.symm⟩
      · obtain ⟨hcount, -⟩ := hpre.colons
        obtain ⟨hcount', w, hw⟩ := h.opens.colons
        have hmem : ':' ∈ s := by
          have hlast : s.getLast? = some ':' := by
            rw [← List.getLast?_append_of_ne_nil (front ++ pre) hnil, ← hs, hw]
            simp
          exact List.mem_of_getLast? hlast
        have hpos : 0 < s.count ':' := List.count_pos_iff.2 hmem
        rw [hs, List.count_append, List.count_append] at hcount'
        omega
  have htext : front ++ (pre ++ (v' ++ '@' :: b)) = pre' ++ ((s ++ v') ++ '@' :: b) := by
    rw [← List.append_assoc, hs, List.append_assoc, List.append_assoc]
  refine ⟨rfl, s ++ v', htext, h.opens, ?_, fun x hx => ?_⟩
  · exact fun hnil => hv'.1 (List.append_eq_nil_iff.1 hnil).2
  · rcases List.mem_append.1 hx with hx | hx
    · exact h.all x (List.mem_append_left _ hx)
    · exact hv'.2 x hx

/-- **A password never matters** for what is left of the text. -/
theorem redactUrls_password {b v v' : List Char} (hpre : UrlOpener pre)
    (hv : v ≠ [] ∧ ∀ x ∈ v, passwordChar x = true)
    (hv' : v' ≠ [] ∧ ∀ x ∈ v', passwordChar x = true) :
    redactUrls (front ++ (pre ++ (v ++ '@' :: b))) =
      redactUrls (front ++ (pre ++ (v' ++ '@' :: b))) := by
  induction front using redactUrls_induction with
  | nil =>
    have hcred : UrlCredential ([] ++ (pre ++ (v ++ '@' :: b))) pre v b := ⟨rfl, hpre, hv.1, hv.2⟩
    have hcred' : UrlCredential ([] ++ (pre ++ (v' ++ '@' :: b))) pre v' b :=
      ⟨rfl, hpre, hv'.1, hv'.2⟩
    rw [redactUrls_of_credential hcred, redactUrls_of_credential hcred']
  | credential hcred ih =>
    rw [redactUrls_of_credential (hcred.append _), redactUrls_of_credential (hcred.append _), ih]
  | @none c front hnone ih =>
    by_cases hsome : ∃ pre' secret rest,
        UrlCredential (c :: front ++ (pre ++ (v ++ '@' :: b))) pre' secret rest
    · obtain ⟨pre', secret, rest, hcred⟩ := hsome
      rcases hcred.split with ⟨l, hfront, -⟩ | ⟨t, hback, hfront⟩
      · exact absurd hfront (hnone pre' secret l)
      · obtain ⟨rfl, secret', hcred'⟩ := hcred.swap hpre hv.2 hv' hback hfront
        rw [redactUrls_of_credential hcred, redactUrls_of_credential hcred']
    · have hnone' : ∀ pre' secret rest,
          ¬ UrlCredential (c :: front ++ (pre ++ (v' ++ '@' :: b))) pre' secret rest := by
        intro pre' secret rest hcred
        rcases hcred.split with ⟨l, hfront, -⟩ | ⟨t, hback, hfront⟩
        · exact hnone pre' secret l hfront
        · obtain ⟨-, secret', hcred'⟩ := hcred.swap hpre hv'.2 hv hback hfront
          exact hsome ⟨pre', secret', b, hcred'⟩
      have hnone : ∀ pre' secret rest,
          ¬ UrlCredential (c :: front ++ (pre ++ (v ++ '@' :: b))) pre' secret rest :=
        fun pre' secret rest hcred => hsome ⟨pre', secret, rest, hcred⟩
      rw [List.cons_append] at hnone hnone' ⊢
      rw [redactUrls_of_none hnone, List.cons_append, redactUrls_of_none hnone', ih]

end Passwords

end SchemaSentry
