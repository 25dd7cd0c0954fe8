import SchemaSentry.Logging.Urls
/-!
# Schema Sentry — secrets behind their names

What the three passes leave of a text with a credential behind `Basic` or
`Bearer`, or with a value behind the name of a secret
(`redact_credential`, `redact_value`): the same whatever the secret is,
where no match of any pass reaches over its ends.
-/

namespace SchemaSentry

open Lib

variable {text front back before a b p v w rest k s l t u out : List Char} {x c : Char}

/-! ## Names -/

/-- A name and what is no part of one behind it. -/
def Named (names : List (List Char)) (pre : List Char) : Prop :=
  ∃ name glue, pre = name ++ glue ∧ name.map foldCase ∈ names ∧ glue ≠ [] ∧
    ∀ x ∈ glue, keyChar x = false

/-- **No name goes over into another** that is none of its endings. -/
theorem Named.append_ne {names : List (List Char)}
    (hnames : ∀ name : List Char, name.map foldCase ∈ names → ∀ x ∈ name, keyChar x = true)
    (hk : k ≠ [] ∧ ∀ x ∈ k, keyChar x = true) (hs : ∀ x ∈ s.head?, keyChar x = false)
    (hends : ∀ name ∈ names, k.map foldCase <:+ name → name = k.map foldCase)
    (hl : l ≠ []) (ht : t ≠ []) (h : Named names (l ++ t)) : t ++ u ≠ k ++ s := by
  intro heq
  obtain ⟨name, glue, hsplit, hname, hglue, hnot⟩ := h
  -- what follows begins with a character of a name
  have hhead : ∀ x ∈ t.head?, keyChar x = true := by
    intro x hx
    obtain ⟨y, t, rfl⟩ := List.exists_cons_of_ne_nil ht
    obtain ⟨z, k, rfl⟩ := List.exists_cons_of_ne_nil hk.1
    obtain rfl : y = x := Option.some.inj hx
    obtain rfl : y = z := (List.cons.inj heq).1
    exact hk.2 y List.mem_cons_self
  rcases List.append_eq_append_iff.1 hsplit with ⟨m, rfl, rfl⟩ | ⟨m, rfl, rfl⟩
  · by_cases hm : m = []
    · subst hm
      obtain ⟨y, glue, rfl⟩ := List.exists_cons_of_ne_nil hglue
      have hy := hhead y rfl
      rw [hnot y List.mem_cons_self] at hy
      cases hy
    · have hm' : ∀ x ∈ m, keyChar x = true := fun x hx =>
        hnames _ hname x (List.mem_append_right _ hx)
      have hglue' : ∀ x ∈ (glue ++ u).head?, keyChar x = false := by
        obtain ⟨y, glue, rfl⟩ := List.exists_cons_of_ne_nil hglue
        exact ends_cons (hnot y List.mem_cons_self)
      rw [List.append_assoc] at heq
      obtain ⟨rfl, -⟩ := append_inj_of_class hm' hglue' hk.2 hs heq
      have hsuffix := hends _ hname ⟨l.map foldCase, (List.map_append ..).symm⟩
      have hlen := congrArg List.length hsuffix
      simp only [List.length_map, List.length_append] at hlen
      exact hl (List.length_eq_zero_iff.1 (by omega))
  · obtain ⟨y, t, rfl⟩ := List.exists_cons_of_ne_nil ht
    have hy := hhead y rfl
    rw [hnot y (by simp)] at hy
    cases hy

theorem keyChar_of_authorizationWords (h : t.map foldCase ∈ authorizationWords) :
    t ≠ [] ∧ ∀ x ∈ t, keyChar x = true := by
  obtain ⟨hne, hall⟩ := isLetter_of_authorizationWords h
  exact ⟨hne, fun x hx => by rw [keyChar, hall x hx, Bool.true_or]⟩

theorem Named.head {names : List (List Char)}
    (hnames : ∀ name : List Char, name.map foldCase ∈ names →
      name ≠ [] ∧ ∀ x ∈ name, keyChar x = true) (h : Named names p) :
    ∃ x ∈ p.head?, keyChar x = true := by
  obtain ⟨name, glue, rfl, hname, -⟩ := h
  obtain ⟨hne, hall⟩ := hnames name hname
  obtain ⟨y, name, rfl⟩ := List.exists_cons_of_ne_nil hne
  exact ⟨y, rfl, hall y List.mem_cons_self⟩

/-- **A front of names stays as it is redacted** when the text behind the
name at its end is another. -/
theorem scans_of_named {r : Regex Char} {f : Match Char → List Char}
    {opens : List Char → List Char → Prop} {q : Char → Bool} {put : List Char}
    {names names' : List (List Char)} (hr : Regex.HidesRun r f opens q put)
    (hq : ∀ x, keyChar x = true → q x = true)
    (hopens : ∀ {before pre}, opens before pre → Named names pre) (hnames : ∀ name : List Char, name.map foldCase ∈ names → ∀ x ∈ name, keyChar x = true)
    (hnames' : ∀ name : List Char, name.map foldCase ∈ names' →
      name ≠ [] ∧ ∀ x ∈ name, keyChar x = true)
    (hends : ∀ name ∈ names, ∀ name' ∈ names', name' <:+ name → name = name')
    (hp : Named names' p) (hscans : Regex.Scans r f p before front out) :
    (∀ rest, Regex.Scans r f (p ++ rest) before front out) ∧
      Regex.Scans r f [] before front out := by
  have hback : ∃ x ∈ p.head?, q x = true := by
    obtain ⟨x, hx, hkey⟩ := hp.head hnames'
    exact ⟨x, hx, hq x hkey⟩
  constructor
  · intro rest
    refine hr.move hback (fun before l t u hl ht hopen => ?_) hscans
    obtain ⟨name, glue, rfl, hname, hglue, hnot⟩ := hp
    rw [List.append_assoc]
    refine (hopens hopen).append_ne hnames (hnames' name hname) ?_
      (fun n hn hsuffix => hends n hn _ hname hsuffix) hl ht
    obtain ⟨y, glue, rfl⟩ := List.exists_cons_of_ne_nil hglue
    exact ends_cons (hnot y List.mem_cons_self)
  · exact hr.move hback (fun before l t u _ ht _ hnil => ht (List.append_eq_nil_iff.1 hnil).1) hscans

section Lawful

variable [PyText] [PyWord] [PyText.Lawful] [PyWord.Lawful]

theorem keyChar_of_isSpace (h : PyText.isSpace x = true) : keyChar x = false := by
  by_contra hkey
  have hspace := isSpace_of_plainChar (plainChar_of_keyChar (by simpa using hkey))
  rw [h] at hspace
  cases hspace

theorem InlineOpener.named (h : InlineOpener p) : Named secretKeys p := by
  obtain ⟨key, gap, sep, gap', rfl, hkey, hgap, hsep, hgap'⟩ := h
  refine ⟨key, gap ++ sep :: gap', rfl, hkey, by simp, fun x hx => ?_⟩
  rcases List.mem_append.1 hx with hx | hx
  · exact keyChar_of_isSpace (hgap x hx)
  · rcases List.mem_cons.1 hx with rfl | hx
    · rcases hsep with rfl | rfl <;> decide
    · exact keyChar_of_isSpace (hgap' x hx)

theorem CredentialOpener.named (h : CredentialOpener p) : Named authorizationWords p := by
  obtain ⟨word, gap, rfl, hword, hne, hgap⟩ := h
  exact ⟨word, gap, rfl, hword, hne, fun x hx => keyChar_of_isSpace (hgap x hx)⟩

/-! ## URLs around a value -/

/-- Behind the colon of a name stands white space only. -/
theorem InlineOpener.after_colon (h : InlineOpener (t ++ ':' :: u)) :
    ∀ x ∈ u, PyText.isSpace x = true := by
  obtain ⟨key, gap, sep, gap', heq, hkey, hgap, -, hgap'⟩ := h
  have hcolon : PyText.isSpace ':' = false := isSpace_of_plainChar (by decide)
  have hfront : ':' ∉ key ++ gap := by
    intro hmem
    rcases List.mem_append.1 hmem with hmem | hmem
    · have hx := (keyChar_of_secretKeys hkey).2 _ hmem
      revert hx
      decide
    · rw [hgap _ hmem] at hcolon
      cases hcolon
  rw [← List.append_assoc] at heq
  rcases List.append_eq_append_iff.1 heq with ⟨m, hm, hrest⟩ | ⟨m, hm, hrest⟩
  · rcases m with _ | ⟨y, m⟩
    · rw [(List.cons.inj hrest).2]
      exact hgap'
    · obtain rfl : ':' = y := (List.cons.inj hrest).1
      exact absurd (by rw [hm]; simp) hfront
  · rcases m with _ | ⟨y, m⟩
    · rw [← (List.cons.inj hrest).2]
      exact hgap'
    · have hmem : ':' ∈ gap' := by
        rw [(List.cons.inj hrest).2]
        simp
      rw [hgap' _ hmem] at hcolon
      cases hcolon

/-- No credential of a URL ends in a name of a secret. -/
theorem InlineOpener.not_mem (h : InlineOpener p) : '@' ∉ p := by
  obtain ⟨key, gap, sep, gap', rfl, hkey, hgap, hsep, hgap'⟩ := h
  have hat : PyText.isSpace '@' = false := isSpace_of_plainChar (by decide)
  have hspace : ∀ {gap : List Char}, (∀ x ∈ gap, PyText.isSpace x = true) → '@' ∉ gap := by
    intro gap hgap hmem
    rw [hgap _ hmem] at hat
    cases hat
  have hname : '@' ∉ key := by
    intro hmem
    have hx := (keyChar_of_secretKeys hkey).2 _ hmem
    revert hx
    decide
  have hsign : '@' ≠ sep := by rcases hsep with rfl | rfl <;> decide
  simp [hname, hspace hgap, hsign, hspace hgap']

theorem CredentialOpener.not_mem (h : CredentialOpener p) : '@' ∉ p := by
  obtain ⟨word, gap, rfl, hword, -, hgap⟩ := h
  intro hmem
  rcases List.mem_append.1 hmem with hmem | hmem
  · have hx := (keyChar_of_authorizationWords hword).2 _ hmem
    revert hx
    decide
  · have hat : PyText.isSpace '@' = false := isSpace_of_plainChar (by decide)
    rw [hgap _ hmem] at hat
    cases hat

theorem valueChar_of_mark : ∀ x ∈ REDACTED.toList, valueChar x = true := by
  have hplain : ∀ x ∈ REDACTED.toList, plainChar x = true := by decide +kernel
  exact fun x hx => valueChar_of_plainChar (hplain x hx)

/-- A password that takes the end of a name in begins before the name. -/
theorem InlineOpener.length_le (hp : InlineOpener p) {pre : List Char} (hpre : UrlOpener pre)
    (hs : s ≠ [] ∧ ∀ x ∈ s, passwordChar x = true) (heq : (l ++ pre) ++ s = a ++ p) :
    (l ++ pre).length ≤ a.length := by
  rcases List.append_eq_append_iff.1 heq with ⟨u, ha, -⟩ | ⟨u, hu, hpu⟩
  · rw [ha]
    simp only [List.length_append]
    omega
  · by_cases hnil : u = []
    · rw [hu, hnil, List.append_nil]
    · -- the opener's last colon stands in the name, and white space behind it
      obtain ⟨-, w, hw⟩ := hpre.colons
      have hlast : u.getLast? = some ':' := by
        rw [← List.getLast?_append_of_ne_nil a hnil, ← hu, hw]
        simp
      obtain ⟨u, rfl⟩ := List.getLast?_eq_some_iff.1 hlast
      rw [List.append_assoc, List.singleton_append] at hpu
      subst hpu
      obtain ⟨y, s, rfl⟩ := List.exists_cons_of_ne_nil hs.1
      have hspace := hp.after_colon y List.mem_cons_self
      have hy := hs.2 y List.mem_cons_self
      simp [passwordChar, hspace] at hy

/-- **A value stays a value** behind its name, unless the password of a URL
takes the name in. -/
theorem redactUrls_value (hp : InlineOpener p) (hv : v ≠ [] ∧ ∀ x ∈ v, valueChar x = true)
    (hno : ¬ PasswordAcross a (p ++ v)) :
    ∃ w, redactUrls (a ++ (p ++ v)) = redactUrls a ++ (p ++ w) ∧
      w ≠ [] ∧ ∀ x ∈ w, valueChar x = true := by
  suffices hfront : ∀ front, (∃ l, l ++ front = a ++ p) →
      ∃ w, redactUrls (front ++ v) = redactUrls front ++ w ∧ w ≠ [] ∧ ∀ x ∈ w, valueChar x = true by
    obtain ⟨w, hw, hvalue⟩ := hfront (a ++ p) ⟨[], rfl⟩
    rw [redactUrls_append_of_not_mem hp.not_mem, List.append_assoc, List.append_assoc] at hw
    exact ⟨w, hw, hvalue⟩
  intro front
  induction front using redactUrls_induction with
  | nil =>
    exact fun _ => ⟨redactUrls v, rfl, redactUrls_ne_nil hv.1,
      forall_mem_redactUrls valueChar_of_mark hv.2⟩
  | @credential front pre secret rest hcred ih =>
    rintro ⟨l, hl⟩
    obtain ⟨w, hw, hvalue⟩ := ih ⟨l ++ (pre ++ (secret ++ ['@'])), by rw [← hl, hcred.eq]; simp⟩
    refine ⟨w, ?_, hvalue⟩
    rw [redactUrls_of_credential (hcred.append v), redactUrls_of_credential hcred, hw]
    simp
  | @none c front hnone ih =>
    rintro ⟨l, hl⟩
    by_cases hsome : ∃ pre secret rest, UrlCredential (c :: front ++ v) pre secret rest
    · obtain ⟨pre, secret, rest, hcred⟩ := hsome
      rcases hcred.split with ⟨m, hfront, -⟩ | ⟨t, hback, hfront⟩
      · exact absurd hfront (hnone pre secret m)
      · -- the opener reaches into the value, so the password begins there
        obtain ⟨m, hpre, rfl⟩ : ∃ m, pre = c :: front ++ m ∧ t = m ++ secret := by
          rcases List.append_eq_append_iff.1 hfront with ⟨s, hs, hsecret⟩ | h
          · by_cases hnil : s = []
            · rw [hnil, List.append_nil] at hs
              rw [hnil, List.nil_append] at hsecret
              exact ⟨[], by rw [hs, List.append_nil], hsecret.symm⟩
            · have hpass : ∀ x ∈ s, passwordChar x = true := fun x hx =>
                hcred.all x (by rw [hsecret]; exact List.mem_append_left _ hx)
              have hlen := hp.length_le (s := s) hcred.opens ⟨hnil, hpass⟩
                (by rw [List.append_assoc, ← hs, hl])
              refine absurd ⟨l, c :: front ++ v, pre, secret, rest, ?_, hcred, hlen, ?_⟩ hno
              · rw [← List.append_assoc, ← hl, List.append_assoc]
              · rw [hback]
                simp only [List.length_append, List.length_cons]
                omega
          · exact h
        have hat : '@' ∉ c :: front := by
          intro hmem
          have hx := hcred.opens.all '@' (by rw [hpre]; exact List.mem_append_left _ hmem)
          rw [not_passwordChar_at] at hx
          cases hx
        have hvalue : ∀ x, x ∈ m ∨ x ∈ rest → valueChar x = true := by
          intro x hx
          refine hv.2 x ?_
          rw [hback]
          simp only [List.mem_append, List.mem_cons]
          tauto
        refine ⟨m ++ (REDACTED.toList ++ '@' :: redactUrls rest), ?_, by simp, fun x hx => ?_⟩
        · rw [redactUrls_of_credential hcred, redactUrls_of_not_mem hat, hpre, List.append_assoc]
        · rw [List.mem_append, List.mem_append, List.mem_cons] at hx
          rcases hx with hx | hx | rfl | hx
          · exact hvalue x (Or.inl hx)
          · exact valueChar_of_mark x hx
          · exact valueChar_of_plainChar (by decide)
          · exact forall_mem_redactUrls valueChar_of_mark (fun y hy => hvalue y (Or.inr hy)) x hx
    · obtain ⟨w, hw, hvalue⟩ := ih ⟨l ++ [c], by rw [← hl]; simp⟩
      refine ⟨w, ?_, hvalue⟩
      rw [redactUrls_of_none hnone, List.cons_append, redactUrls_of_none, hw]
      · rfl
      · exact fun pre secret rest hcred => hsome ⟨pre, secret, rest, hcred⟩

/-! ## Values -/

theorem valueChar_of_keyChar (h : keyChar x = true) : valueChar x = true :=
  valueChar_of_plainChar (plainChar_of_keyChar h)

omit [PyText] [PyWord] [PyText.Lawful] [PyWord.Lawful] in
theorem credentialChar_of_keyChar (h : keyChar x = true) : credentialChar x = true := by
  simp only [keyChar, credentialChar, Bool.or_eq_true, decide_eq_true_eq, List.mem_cons] at h ⊢
  tauto

theorem subFrom_inlineSecret (before text : List Char) :
    inlineSecret.subFrom redactedSecret 0 before text = redactInline text :=
  hidesRun_inlineSecret.subFrom_congr (R := fun _ _ => True) (fun _ _ _ _ => Iff.rfl)
    (fun _ _ _ _ => trivial) trivial text

/-- What no name begins with stays at the beginning. -/
theorem matchAt_inlineSecret (hx : keyChar x = false) :
    inlineSecret.matchAt before (x :: text) = none := by
  by_contra hsome
  obtain ⟨m, hm⟩ := Option.ne_none_iff_exists'.1 hsome
  obtain ⟨pre, run, rest, htext, hopens, -⟩ := hidesRun_inlineSecret.reads hm
  obtain ⟨y, hy, hkey⟩ := hopens.named.head fun name => keyChar_of_secretKeys
  obtain ⟨pre, rfl⟩ : ∃ t, pre = y :: t := List.head?_eq_some_iff.1 hy
  obtain rfl : x = y := (List.cons.inj htext).1
  rw [hx] at hkey
  cases hkey

theorem head?_redactInline (h : ∀ x ∈ text.head?, keyChar x = false) :
    (redactInline text).head? = text.head? := by
  rcases text with _ | ⟨x, text⟩
  · rfl
  · rw [redactInline, Regex.sub, Regex.subFrom_of_none (matchAt_inlineSecret (h x rfl))]
    rfl

omit [PyWord] [PyText.Lawful] [PyWord.Lawful] in
/-- A letter does not begin what is left where none began the text. -/
theorem head?_redactUrls_of_ends {q : Char → Bool} (hq : ∀ x, isLetter x = true → q x = true)
    (h : ∀ x ∈ b.head?, q x = false) : (redactUrls b).head? = b.head? := by
  refine head?_redactUrls fun x hx => ?_
  by_contra hletter
  have hnot := h x hx
  rw [hq x (by simpa using hletter)] at hnot
  cases hnot

/-- What the passes before the last leave of a text with a value. -/
theorem redactInline_value (hp : InlineOpener p) (hv : IsRun valueChar v b)
    (hurl : ¬ UrlAcross (a ++ (p ++ v)) b) (hpass : ¬ PasswordAcross a (p ++ v))
    (hclear : Regex.Scans inlineSecret redactedSecret p [] (redactUrls a) out) :
    redactInline (redactUrls (a ++ (p ++ (v ++ b)))) =
      out ++ (p ++ (REDACTED.toList ++ redactInline (redactUrls b))) := by
  obtain ⟨w, hw, hne, hall⟩ := redactUrls_value hp ⟨hv.ne_nil, hv.all⟩ hpass
  have hurls : redactUrls (a ++ (p ++ (v ++ b))) =
      redactUrls a ++ (p ++ (w ++ redactUrls b)) := by
    have hparts := redactUrls_append hurl
    rw [hw] at hparts
    simpa using hparts
  have hrun : IsRun valueChar w (redactUrls b) := by
    refine ⟨hne, hall, ?_⟩
    rw [head?_redactUrls_of_ends (fun x hx => valueChar_of_plainChar ?_) hv.ends]
    · exact hv.ends
    · rw [plainChar, hx, Bool.true_or, Bool.true_or]
  obtain ⟨hfront, -⟩ := scans_of_named hidesRun_inlineSecret (fun x => valueChar_of_keyChar)
    InlineOpener.named (fun name h => (keyChar_of_secretKeys h).2)
    (fun name => keyChar_of_secretKeys) (by decide +kernel) hp.named hclear
  rw [hurls, redactInline, Regex.sub, (hfront _).subFrom_eq, List.append_nil,
    hidesRun_inlineSecret.subFrom_eq hp hrun, subFrom_inlineSecret]

/-! ## Credentials -/

/-- No name of a secret begins in `Basic` or `Bearer`. -/
theorem CredentialOpener.silent (hp : CredentialOpener p) (back : List Char) :
    Regex.Silent inlineSecret p back := by
  intro l t before hl ht
  obtain ⟨word, gap, rfl, hword, hne, hgap⟩ := hp
  have hspace : ∀ x ∈ gap, keyChar x = false := fun x hx => keyChar_of_isSpace (hgap x hx)
  have hnone : ∀ x ∈ t.head?, keyChar x = false → inlineSecret.matchAt before (t ++ back) = none := by
    intro x hx hkey
    obtain ⟨t, rfl⟩ := List.head?_eq_some_iff.1 hx
    exact matchAt_inlineSecret hkey
  obtain ⟨y, t, rfl⟩ := List.exists_cons_of_ne_nil ht
  rcases List.append_eq_append_iff.1 hl with ⟨u, rfl, rfl⟩ | ⟨u, rfl, htail⟩
  · exact hnone y rfl (hspace y (by simp))
  · by_contra hsome
    obtain ⟨m, hm⟩ := Option.ne_none_iff_exists'.1 hsome
    obtain ⟨pre, run, rest, htext, hopens, -⟩ := hidesRun_inlineSecret.reads hm
    obtain ⟨key, glue, rfl, hkey, hglue, hnot⟩ := hopens.named
    -- the name would end where the word does
    have hends : ∀ {glue tail : List Char}, glue ≠ [] → (∀ x ∈ glue, keyChar x = false) →
        ∀ x ∈ (glue ++ tail).head?, keyChar x = false := by
      intro glue tail hne hall
      obtain ⟨y, glue, rfl⟩ := List.exists_cons_of_ne_nil hne
      exact ends_cons (hall y List.mem_cons_self)
    have hu : ∀ x ∈ u, keyChar x = true := fun x hx =>
      (keyChar_of_authorizationWords hword).2 x (List.mem_append_right _ hx)
    rw [htail, List.append_assoc, List.append_assoc] at htext
    obtain ⟨rfl, -⟩ := append_inj_of_class hu (hends hne hspace) (keyChar_of_secretKeys hkey).2
      (hends hglue hnot) htext
    have hapart : ∀ word ∈ authorizationWords, ∀ key ∈ secretKeys, ¬ key <:+ word := by
      decide +kernel
    exact hapart _ hword _ hkey ⟨l.map foldCase, (List.map_append ..).symm⟩

/-- `_AUTHORIZATION` looks at the character before. -/
theorem subFrom_authorization {before' : List Char} (h : before.head? = before'.head?)
    (text : List Char) : authorization.subFrom redactedSecret 0 before text =
      authorization.subFrom redactedSecret 0 before' text := by
  refine hidesRun_authorization.subFrom_congr (R := fun b b' => b.head? = b'.head?)
    (fun b b' pre hb => ?_) (fun b b' x _ => rfl) h text
  rw [AuthorizationOpener, AuthorizationOpener, hb]

/-- Nothing before counts where no letter begins the text. -/
theorem subFrom_authorization_of_ends (h : ∀ x ∈ text.head?, isLetter x = false) :
    authorization.subFrom redactedSecret 0 before text = redactAuthorization text := by
  rcases text with _ | ⟨x, text⟩
  · rfl
  · have hnone : ∀ before, authorization.matchAt before (x :: text) = none := by
      intro before
      by_contra hsome
      obtain ⟨m, hm⟩ := Option.ne_none_iff_exists'.1 hsome
      obtain ⟨pre, run, rest, htext, ⟨⟨word, gap, rfl, hword, -⟩, -⟩, -⟩ :=
        hidesRun_authorization.reads hm
      obtain ⟨hne, hall⟩ := isLetter_of_authorizationWords hword
      obtain ⟨y, word, rfl⟩ := List.exists_cons_of_ne_nil hne
      obtain rfl : x = y := (List.cons.inj htext).1
      have hletter := hall x List.mem_cons_self
      rw [h x rfl] at hletter
      cases hletter
    rw [redactAuthorization, Regex.sub, Regex.subFrom_of_none (hnone _),
      Regex.subFrom_of_none (hnone _), subFrom_authorization]
    rfl

/-- What the passes leave of a text with a credential. -/
theorem redactAuthorization_credential {out' : List Char} (hp : AuthorizationOpener a.reverse p)
    (hv : IsRun credentialChar v b) (hurl : ¬ UrlAcross (a ++ (p ++ v)) b)
    (hinline : Regex.Scans inlineSecret redactedSecret p [] (redactUrls a) out)
    (hsilent : Regex.Silent inlineSecret v (redactUrls b))
    (hclear : Regex.Scans authorization redactedSecret p [] (redactInline (redactUrls a)) out') :
    redactAuthorization (redactInline (redactUrls (a ++ (p ++ (v ++ b))))) =
      out' ++ (p ++ (REDACTED.toList ++ redactAuthorization (redactInline (redactUrls b)))) := by
  have hletter : ∀ x, isLetter x = true → credentialChar x = true := by
    intro x hx
    rw [credentialChar, hx, Bool.true_or, Bool.true_or]
  have hfree : '@' ∉ p ++ v := by
    intro hmem
    rcases List.mem_append.1 hmem with hmem | hmem
    · exact hp.1.not_mem hmem
    · have hx := hv.all _ hmem
      revert hx
      decide
  have hurls : redactUrls (a ++ (p ++ (v ++ b))) =
      redactUrls a ++ (p ++ (v ++ redactUrls b)) := by
    have hparts := redactUrls_append hurl
    rw [redactUrls_append_of_not_mem hfree] at hparts
    simpa using hparts
  -- the second pass leaves the credential and its opener
  obtain ⟨hfront, halone⟩ := scans_of_named hidesRun_inlineSecret
    (fun x => valueChar_of_keyChar) InlineOpener.named (fun name h => (keyChar_of_secretKeys h).2)
    (fun name => keyChar_of_authorizationWords) (by decide +kernel) hp.1.named hinline
  have hout : redactInline (redactUrls a) = out := by
    have hsub := halone.subFrom_eq
    rw [List.append_nil, subFrom_inlineSecret] at hsub
    rw [hsub, Regex.subFrom.eq_def, List.append_nil]
  have hinlines : redactInline (redactUrls (a ++ (p ++ (v ++ b)))) =
      out ++ (p ++ (v ++ redactInline (redactUrls b))) := by
    rw [hurls, redactInline, Regex.sub, (hfront _).subFrom_eq,
      ((hp.1.silent (v ++ redactUrls b)).scans _).subFrom_eq, (hsilent.scans _).subFrom_eq,
      subFrom_inlineSecret]
  -- the last one finds it where it was
  have hbefore : AuthorizationOpener (out.reverse ++ []) p := by
    refine ⟨hp.1, fun x hx => hp.2 x ?_⟩
    obtain ⟨y, hy, hkey⟩ := hp.1.named.head fun name => keyChar_of_authorizationWords
    have hlast := hidesRun_inlineSecret.getLast?_scans ⟨y, hy, valueChar_of_keyChar hkey⟩ hinline
    rwa [List.append_nil, List.head?_reverse, hlast, getLast?_redactUrls,
      ← List.head?_reverse] at hx
  have hrest : (redactInline (redactUrls b)).head? = b.head? := by
    have hb := head?_redactUrls_of_ends hletter hv.ends
    rw [head?_redactInline, hb]
    rw [hb]
    intro x hx
    by_contra hkey
    have hnot := hv.ends x hx
    rw [credentialChar_of_keyChar (by simpa using hkey)] at hnot
    cases hnot
  have hrun : IsRun credentialChar v (redactInline (redactUrls b)) :=
    ⟨hv.ne_nil, hv.all, by rw [hrest]; exact hv.ends⟩
  rw [hout] at hclear
  obtain ⟨hfront', -⟩ := scans_of_named hidesRun_authorization
    (fun x => credentialChar_of_keyChar) (fun h => h.1.named)
    (fun name h => (keyChar_of_authorizationWords h).2) (fun name => keyChar_of_authorizationWords)
    (by decide +kernel) hp.1.named hclear
  rw [hinlines, redactAuthorization, Regex.sub, (hfront' _).subFrom_eq,
    hidesRun_authorization.subFrom_eq hbefore hrun, subFrom_authorization_of_ends]
  intro x hx
  rw [hrest] at hx
  by_contra hnot
  have hends := hv.ends x hx
  rw [hletter x (by simpa using hnot)] at hends
  cases hends

end Lawful

end SchemaSentry
