import Folio.Tree.LinkLiteral
import Mathlib.Data.List.TakeDrop
import Mathlib.Tactic.Lemma

/-!
# Where link literals are found

A literal reaches back from a colon, a dot or an at sign and on behind it. Neither way does it pass
a blank, and the address in front of an at sign reaches back as far as it can.
-/

namespace Folio.Literal

open Folio.Tree (slice)

/-- Beyond the space and all control characters below it. -/
def Solid (c : Char) : Prop :=
  32 < c.toNat

instance (c : Char) : Decidable (Solid c) :=
  inferInstanceAs (Decidable (32 < c.toNat))

def AllSolid (cs : List Char) : Prop :=
  ∀ c ∈ cs, Solid c

section Solid

variable {c : Char} {cs ds : List Char}

lemma allSolid_nil : AllSolid [] := by
  intro c hc
  cases hc

lemma allSolid_cons : AllSolid (c :: cs) ↔ Solid c ∧ AllSolid cs :=
  List.forall_mem_cons

lemma allSolid_append : AllSolid (cs ++ ds) ↔ AllSolid cs ∧ AllSolid ds :=
  List.forall_mem_append

/-- A stretch that begins at position `i` with a character that is no blank. -/
lemma allSolid_take_cons {stop i : Nat} (hc : Solid c) (h : AllSolid (cs.take (stop - (i + 1)))) :
    AllSolid ((c :: cs).take (stop - i)) := by
  rcases Nat.eq_zero_or_pos (stop - i) with hzero | hpos
  · rw [hzero]
    exact allSolid_nil
  · have hone : stop - i = stop - (i + 1) + 1 := by omega
    rw [hone, List.take_succ_cons, allSolid_cons]
    exact ⟨hc, h⟩

lemma allSolid_take_of_le {stop i : Nat} (h : stop ≤ i) : AllSolid (cs.take (stop - i)) := by
  rw [Nat.sub_eq_zero_of_le h]
  exact allSolid_nil

lemma solid_of_le {d : Char} (hd : Solid d) (h : d.val ≤ c.val) : Solid c :=
  Nat.lt_of_lt_of_le hd (UInt32.le_iff_toNat_le.mp h)

lemma solid_of_isAlpha (h : c.isAlpha = true) : Solid c := by
  have hcases : c.isUpper = true ∨ c.isLower = true := (Bool.or_eq_true ..).mp h
  rcases hcases with hupper | hlower
  · have hbounds : 'A'.val ≤ c.val ∧ c.val ≤ 'Z'.val := of_decide_eq_true hupper
    exact solid_of_le (by decide) hbounds.1
  · have hbounds : (decide ('a'.val ≤ c.val) && decide (c.val ≤ 'z'.val)) = true := hlower
    rw [Bool.and_eq_true, decide_eq_true_eq] at hbounds
    exact solid_of_le (by decide) hbounds.1

lemma solid_of_isLetter (h : isLetter c = true) : Solid c := by
  rw [isLetter, Bool.or_eq_true, decide_eq_true_eq] at h
  rcases h with halpha | hwide
  · exact solid_of_isAlpha halpha
  · exact Nat.lt_of_lt_of_le (by decide) hwide

lemma solid_of_isDigit (h : c.isDigit = true) : Solid c := by
  have hbounds : (decide ('0'.val ≤ c.val) && decide (c.val ≤ '9'.val)) = true := h
  rw [Bool.and_eq_true, decide_eq_true_eq] at hbounds
  exact solid_of_le (by decide) hbounds.1

lemma solid_of_mem (h : ds.all (fun d => decide (Solid d)) = true) (hc : ds.contains c = true) :
    Solid c :=
  of_decide_eq_true (List.all_eq_true.mp h c (List.contains_iff_mem.mp hc))

lemma solid_of_beq {d : Char} (hd : Solid d) (h : (c == d) = true) : Solid c :=
  (beq_iff_eq.mp h) ▸ hd

lemma solid_of_isLocal (h : isLocal c = true) : Solid c := by
  simp only [isLocal, Bool.or_eq_true] at h
  rcases h with (hletter | hdigit) | hmark
  · exact solid_of_isLetter hletter
  · exact solid_of_isDigit hdigit
  · exact solid_of_mem (by decide) hmark

lemma solid_of_not_endsUrl (h : endsUrl c = false) : Solid c := by
  have hspace : c.toNat ≠ 32 := by
    intro hn
    obtain rfl : c = ' ' := Char.toNat_inj.mp hn
    cases h
  simp only [endsUrl, Bool.or_eq_false_iff, decide_eq_false_iff_not] at h
  unfold Solid
  omega

end Solid

section Authority

variable {rules : AuthorityRules} {s s' : AuthorityState} {i : Nat} {c : Char} {cs : List Char}

/-- What the scan of an authority goes on behind is no blank, and it may end behind that. -/
lemma step_next (h : s.step rules i c = .next s') (hs : s.stop ≤ i) :
    Solid c ∧ s'.stop ≤ i + 1 := by
  unfold AuthorityState.step at h
  split at h
  · next hword =>
    cases h
    rw [Bool.or_eq_true] at hword
    refine ⟨hword.elim solid_of_isLetter solid_of_isDigit, ?_⟩
    dsimp only
    split <;> omega
  split at h
  · next hhyphen =>
    cases h
    refine ⟨solid_of_beq (by decide) hhyphen, ?_⟩
    dsimp only
    split <;> omega
  split at h
  · next hdot =>
    cases h
    exact ⟨solid_of_beq (by decide) hdot, Nat.le_succ_of_le hs⟩
  split at h
  · next hmark =>
    cases h
    rw [Bool.or_eq_true] at hmark
    exact ⟨hmark.elim (solid_of_beq (by decide)) (solid_of_beq (by decide)), Nat.le_succ_of_le hs⟩
  split at h
  · next hdelimiter =>
    dsimp only at h
    split at h
    · cases h
    · cases h
      exact ⟨solid_of_mem (by decide) hdelimiter, Nat.le_succ_of_le hs⟩
  split at h
  · next hcolon =>
    split at h
    · cases h
    · cases h
      exact ⟨solid_of_beq (by decide) hcolon, Nat.le_succ_of_le hs⟩
  split at h
  · next hat =>
    split at h
    · cases h
      exact ⟨solid_of_beq (by decide) hat, Nat.le_succ_of_le hs⟩
    · cases h
  split at h <;> cases h

lemma step_done (h : s.step rules i c = .done s') (hs : s.stop ≤ i) : s'.stop ≤ i := by
  unfold AuthorityState.step at h
  dsimp only at h
  repeat' split at h
  all_goals first | cases h; done | skip
  all_goals
    cases h
    first | exact hs | exact Nat.le_refl i

lemma allSolid_scanAuthority (h : scanAuthority rules s i cs = some s') (hs : s.stop ≤ i) :
    AllSolid (cs.take (s'.stop - i)) := by
  induction cs generalizing s i with
  | nil =>
    rw [List.take_nil]
    exact allSolid_nil
  | cons c cs ih =>
    rw [scanAuthority] at h
    split at h
    · next s₁ hstep =>
      obtain ⟨hc, hs₁⟩ := step_next hstep hs
      exact allSolid_take_cons hc (ih h hs₁)
    · next s₁ hstep =>
      cases h
      exact allSolid_take_of_le (step_done hstep hs)
    · cases h

lemma stop_le_of_scanAuthority (h : scanAuthority rules s i cs = some s') (hs : s.stop ≤ i) :
    s'.stop ≤ i + cs.length := by
  induction cs generalizing s i with
  | nil =>
    cases h
    exact hs
  | cons c cs ih =>
    rw [scanAuthority] at h
    rw [List.length_cons]
    split at h
    · next s₁ hstep =>
      have hrest := ih h (step_next hstep hs).2
      omega
    · next s₁ hstep =>
      cases h
      have hdone := step_done hstep hs
      omega
    · cases h

lemma exists_scan_of_authorityEnd {stop : Nat} {dot : Option Nat}
    (h : authorityEnd rules cs = some (stop, dot)) :
    ∃ s, scanAuthority rules (AuthorityState.initial rules.userAllowed) 0 cs = some s ∧
      s.stop = stop := by
  simp only [authorityEnd, Option.bind_eq_bind, Option.bind_eq_some_iff] at h
  obtain ⟨s, hscan, hrest⟩ := h
  refine ⟨s, hscan, ?_⟩
  repeat' split at hrest
  all_goals first | (cases hrest; done) | skip
  all_goals simp_all

/-- An authority goes up to a blank at most. -/
lemma allSolid_authorityEnd {stop : Nat} {dot : Option Nat}
    (h : authorityEnd rules cs = some (stop, dot)) : AllSolid (cs.take stop) := by
  obtain ⟨s, hscan, rfl⟩ := exists_scan_of_authorityEnd h
  have hsolid := allSolid_scanAuthority hscan (Nat.le_refl 0)
  rwa [Nat.sub_zero] at hsolid

lemma authorityEnd_le {stop : Nat} {dot : Option Nat}
    (h : authorityEnd rules cs = some (stop, dot)) : stop ≤ cs.length := by
  obtain ⟨s, hscan, rfl⟩ := exists_scan_of_authorityEnd h
  have hstop := stop_le_of_scanAuthority hscan (Nat.le_refl 0)
  rwa [Nat.zero_add] at hstop

end Authority

section Tail

variable {quote : Option Char} {s : TailState} {i : Nat} {cs : List Char}

lemma tailStep_some {s s' : TailState} {c : Char} {canEnd : Bool}
    (h : s.step quote c = some (s', canEnd)) : Solid c ∧ s'.stop = s.stop := by
  unfold TailState.step at h
  split at h
  · cases h
  · next hends =>
    refine ⟨solid_of_not_endsUrl (by simpa using hends), ?_⟩
    repeat' split at h
    all_goals first | (cases h; done) | (cases h; rfl)

lemma allSolid_scanTail (hs : s.stop ≤ i) : AllSolid (cs.take (scanTail quote s i cs - i)) := by
  induction cs generalizing s i with
  | nil =>
    rw [List.take_nil]
    exact allSolid_nil
  | cons c cs ih =>
    rw [scanTail]
    split
    · exact allSolid_take_of_le hs
    · next s₁ canEnd hstep =>
      obtain ⟨hc, hs₁⟩ := tailStep_some hstep
      refine allSolid_take_cons hc (ih ?_)
      dsimp only
      split <;> omega

lemma scanTail_le (hs : s.stop ≤ i) : scanTail quote s i cs ≤ i + cs.length := by
  induction cs generalizing s i with
  | nil => exact hs
  | cons c cs ih =>
    rw [scanTail, List.length_cons]
    split
    · omega
    · next s₁ canEnd hstep =>
      have hs₁ := (tailStep_some hstep).2
      refine Nat.le_trans (ih ?_) (by omega)
      dsimp only
      split <;> omega

lemma tailLength_le (quote : Option Char) (cs : List Char) : tailLength quote cs ≤ cs.length := by
  unfold tailLength
  split
  · next cs =>
    have hle : scanTail quote ⟨0, 0, 0, false, true, 0⟩ 0 ('/' :: cs) ≤ 0 + ('/' :: cs).length :=
      scanTail_le (Nat.le_refl 0)
    rwa [Nat.zero_add] at hle
  · exact Nat.zero_le _

lemma allSolid_tailLength (quote : Option Char) (cs : List Char) :
    AllSolid (cs.take (tailLength quote cs)) := by
  unfold tailLength
  split
  · next cs =>
    have hsolid : AllSolid (('/' :: cs).take
        (scanTail quote ⟨0, 0, 0, false, true, 0⟩ 0 ('/' :: cs) - 0)) :=
      allSolid_scanTail (Nat.le_refl 0)
    rwa [Nat.sub_zero] at hsolid
  · exact allSolid_nil

end Tail

section Reach

variable {c : Char} {cs : List Char} {n k : Nat}

/-- A reach of `k` characters, `n` of which have been passed, ends within the `cs` that are left and
takes in no blank of them. -/
def SolidReach (n : Nat) (cs : List Char) (k : Nat) : Prop :=
  k ≤ n + cs.length ∧ AllSolid (cs.take (k - n))

lemma solidReach_of_le (h : k ≤ n) : SolidReach n cs k :=
  ⟨Nat.le_trans h (Nat.le_add_right ..), allSolid_take_of_le h⟩

lemma SolidReach.cons (h : SolidReach (n + 1) cs k) (hc : Solid c) : SolidReach n (c :: cs) k := by
  have hlength : (c :: cs).length = cs.length + 1 := List.length_cons
  have hle := h.1
  exact ⟨by omega, allSolid_take_cons hc h.2⟩

lemma le_of_schemeReach_settle {first digit : Option Nat} {quote : Option Char} {r : Reach}
    (hfirst : ∀ f ∈ first, f ≤ n) (h : schemeReach.settle first digit quote = some r) :
    r.length ≤ n := by
  unfold schemeReach.settle at h
  split at h
  · next f =>
    split at h
    · cases h
    · cases h
      exact hfirst f rfl
  · cases h

/-- Going back to a scheme passes no blank. -/
lemma solidReach_schemeReach {first digit : Option Nat} {r : Reach}
    (h : schemeReach first digit n cs = some r) (hfirst : ∀ f ∈ first, f ≤ n) :
    SolidReach n cs r.length := by
  induction cs generalizing first digit n with
  | nil => exact solidReach_of_le (le_of_schemeReach_settle hfirst h)
  | cons c cs ih =>
    have hlater : ∀ f ∈ first, f ≤ n + 1 := fun f hf => Nat.le_succ_of_le (hfirst f hf)
    rw [schemeReach] at h
    split at h
    · next hletter =>
      exact (ih h (by simp)).cons (solid_of_isAlpha hletter)
    split at h
    · next hdigit => exact (ih h hlater).cons (solid_of_isDigit hdigit)
    split at h
    · next hmark =>
      simp only [Bool.or_eq_true, beq_iff_eq] at hmark
      refine (ih h hlater).cons ?_
      rcases hmark with (rfl | rfl) | rfl <;> decide
    split at h
    · cases h
    · exact solidReach_of_le (le_of_schemeReach_settle hfirst h)

lemma allSolid_domainReach {r : Reach} (h : domainReach cs = some r) :
    r.length ≤ cs.length ∧ AllSolid (cs.take r.length) := by
  have hlength : r.length = (cs.takeWhile fun c => isLetter c || c.isDigit || c == '-').length := by
    unfold domainReach at h
    dsimp only at h
    repeat' split at h
    all_goals first | (cases h; done) | (cases h; simp_all)
  rw [hlength]
  have hlabel := List.takeWhile_prefix (l := cs) fun c => isLetter c || c.isDigit || c == '-'
  refine ⟨hlabel.length_le, fun c hc => ?_⟩
  rw [← List.prefix_iff_eq_take.mp hlabel] at hc
  have hword := List.all_eq_true.mp List.all_takeWhile c hc
  simp only [Bool.or_eq_true] at hword
  rcases hword with (hletter | hdigit) | hhyphen
  · exact solid_of_isLetter hletter
  · exact solid_of_isDigit hdigit
  · exact solid_of_beq (by decide) hhyphen

lemma eq_of_localReach_settle {first : Nat} (h : localReach.settle first = some k) : k = first := by
  unfold localReach.settle at h
  split at h
  · cases h
  · cases h
    rfl

/-- The words in front of an at sign pass no blank. -/
lemma solidReach_localReach {first : Nat} {boundary : Bool}
    (h : localReach first boundary n cs = some k) (hfirst : first ≤ n) : SolidReach n cs k := by
  induction cs generalizing first boundary n with
  | nil => exact solidReach_of_le (eq_of_localReach_settle h ▸ hfirst)
  | cons c cs ih =>
    rw [localReach] at h
    split at h
    · next hlocal => exact (ih h (Nat.le_refl _)).cons (solid_of_isLocal hlocal)
    split at h
    · next hdot =>
      split at h
      · exact solidReach_of_le (eq_of_localReach_settle h ▸ hfirst)
      · exact (ih h (Nat.le_succ_of_le hfirst)).cons (solid_of_beq (by decide) hdot)
    split at h
    · cases h
    · exact solidReach_of_le (eq_of_localReach_settle h ▸ hfirst)

end Reach

section Around

variable {before after : List Char} {back ahead : Nat}

lemma urlAround_eq_some (h : urlAround before after = some (back, ahead)) :
    ∃ rest reach rules host dot, after = '/' :: '/' :: rest ∧
      schemeReach none none 0 before = some reach ∧
      authorityEnd rules rest = some (host, dot) ∧ back = reach.length ∧
      ahead = 2 + host + tailLength reach.quote (rest.drop host) := by
  unfold urlAround at h
  split at h
  · next rest =>
    split at h
    · cases h
    simp only [Option.bind_eq_bind, Option.bind_eq_some_iff] at h
    obtain ⟨reach, hreach, ⟨host, dot⟩, hhost, hends⟩ := h
    split at hends
    · cases hends
    simp only [Option.some.injEq, Prod.mk.injEq] at hends
    exact ⟨rest, reach, _, host, dot, rfl, hreach, hhost, hends.1.symm, hends.2.symm⟩
  · cases h

/-- The domain is scanned from its first label on, which lies before the dot. -/
lemma domainAround_eq_some (h : domainAround before after = some (back, ahead)) :
    ∃ reach cs rules host dot, domainReach before = some reach ∧
      cs = (before.take reach.length).reverse ++ '.' :: after ∧
      authorityEnd rules cs = some (host, dot) ∧ back = reach.length ∧
      ahead = host + tailLength reach.quote (cs.drop host) - reach.length - 1 := by
  simp only [domainAround, Option.bind_eq_bind, Option.bind_eq_some_iff] at h
  obtain ⟨reach, hreach, ⟨host, dot⟩, hhost, hends⟩ := h
  split at hends
  · cases hends
  simp only [Option.some.injEq, Prod.mk.injEq] at hends
  exact ⟨reach, _, _, host, dot, hreach, rfl, hhost, hends.1.symm, hends.2.symm⟩

lemma emailAround_eq_some (h : emailAround before after = some (back, ahead)) :
    ∃ rules dot, localReach 0 true 0 before = some back ∧
      authorityEnd rules after = some (ahead, dot) := by
  simp only [emailAround, Option.bind_eq_bind, Option.bind_eq_some_iff] at h
  obtain ⟨start, hstart, ⟨host, dot⟩, hhost, hends⟩ := h
  split at hends
  · cases hends
  simp only [Option.some.injEq, Prod.mk.injEq] at hends
  obtain ⟨rfl, rfl⟩ := hends
  exact ⟨_, dot, hstart, hhost⟩

lemma allSolid_urlAround (h : urlAround before after = some (back, ahead)) :
    back ≤ before.length ∧ AllSolid (before.take back) ∧ AllSolid (after.take ahead) := by
  obtain ⟨rest, reach, rules, host, dot, rfl, hreach, hhost, rfl, rfl⟩ := urlAround_eq_some h
  obtain ⟨hlength, hback⟩ := solidReach_schemeReach hreach (by simp)
  rw [Nat.zero_add] at hlength
  rw [Nat.sub_zero] at hback
  refine ⟨hlength, hback, ?_⟩
  have hrest : AllSolid (rest.take (host + tailLength reach.quote (rest.drop host))) := by
    rw [List.take_add, allSolid_append]
    exact ⟨allSolid_authorityEnd hhost, allSolid_tailLength _ _⟩
  rw [Nat.add_assoc, Nat.add_comm 2, List.take_succ_cons, List.take_succ_cons, allSolid_cons,
    allSolid_cons]
  exact ⟨by decide, by decide, hrest⟩

lemma allSolid_domainAround (h : domainAround before after = some (back, ahead)) :
    back ≤ before.length ∧ AllSolid (before.take back) ∧ AllSolid (after.take ahead) := by
  obtain ⟨reach, cs, rules, host, dot, hreach, hcs, hhost, rfl, rfl⟩ := domainAround_eq_some h
  obtain ⟨hlength, hback⟩ := allSolid_domainReach hreach
  refine ⟨hlength, hback, ?_⟩
  generalize hk : host + tailLength reach.quote (cs.drop host) = k
  have hcut : AllSolid (cs.take k) := by
    rw [← hk, List.take_add, allSolid_append]
    exact ⟨allSolid_authorityEnd hhost, allSolid_tailLength _ _⟩
  have hlabel : (before.take reach.length).reverse.length = reach.length := by
    rw [List.length_reverse, List.length_take, Nat.min_eq_left hlength]
  rw [hcs, List.take_append, hlabel, allSolid_append] at hcut
  rcases Nat.eq_zero_or_pos (k - reach.length) with hzero | hpos
  · rw [hzero]
    exact allSolid_nil
  · obtain ⟨j, hj⟩ := Nat.exists_eq_succ_of_ne_zero (Nat.ne_of_gt hpos)
    rw [hj, List.take_succ_cons, allSolid_cons] at hcut
    rw [hj]
    exact hcut.2.2

lemma allSolid_emailAround (h : emailAround before after = some (back, ahead)) :
    back ≤ before.length ∧ AllSolid (before.take back) ∧ AllSolid (after.take ahead) := by
  obtain ⟨rules, dot, hstart, hhost⟩ := emailAround_eq_some h
  obtain ⟨hlength, hback⟩ := solidReach_localReach hstart (Nat.le_refl 0)
  rw [Nat.zero_add] at hlength
  exact ⟨hlength, hback, allSolid_authorityEnd hhost⟩

lemma allSolid_around {c : Char} {kind : LiteralKind}
    (h : around before c after = some (back, ahead, kind)) :
    back ≤ before.length ∧ AllSolid (before.take back) ∧ AllSolid (c :: after.take ahead) := by
  have hcons {c : Char} (hc : Solid c)
      (h : back ≤ before.length ∧ AllSolid (before.take back) ∧ AllSolid (after.take ahead)) :
      back ≤ before.length ∧ AllSolid (before.take back) ∧ AllSolid (c :: after.take ahead) :=
    ⟨h.1, h.2.1, allSolid_cons.mpr ⟨hc, h.2.2⟩⟩
  unfold around at h
  split at h
  · obtain ⟨⟨b, a⟩, hurl, heq⟩ := Option.map_eq_some_iff.mp h
    cases heq
    exact hcons (by decide) (allSolid_urlAround hurl)
  · obtain ⟨⟨b, a⟩, hdomain, heq⟩ := Option.map_eq_some_iff.mp h
    cases heq
    exact hcons (by decide) (allSolid_domainAround hdomain)
  · obtain ⟨⟨b, a⟩, hemail, heq⟩ := Option.map_eq_some_iff.mp h
    cases heq
    exact hcons (by decide) (allSolid_emailAround hemail)
  · cases h

/-- What is found around a character does not go beyond the text behind it. -/
lemma ahead_le_of_around {c : Char} {kind : LiteralKind}
    (h : around before c after = some (back, ahead, kind)) : ahead ≤ after.length := by
  unfold around at h
  split at h
  · obtain ⟨⟨b, a⟩, hurl, heq⟩ := Option.map_eq_some_iff.mp h
    cases heq
    obtain ⟨rest, reach, rules, host, dot, rfl, -, hhost, -, rfl⟩ := urlAround_eq_some hurl
    have hle := authorityEnd_le hhost
    have htail := tailLength_le reach.quote (rest.drop host)
    rw [List.length_drop] at htail
    simp only [List.length_cons]
    omega
  · obtain ⟨⟨b, a⟩, hdomain, heq⟩ := Option.map_eq_some_iff.mp h
    cases heq
    obtain ⟨reach, cs, rules, host, dot, hreach, hcs, hhost, -, rfl⟩ := domainAround_eq_some hdomain
    have hle := authorityEnd_le hhost
    have htail := tailLength_le reach.quote (cs.drop host)
    have hlength : cs.length = min reach.length before.length + (after.length + 1) := by
      simp [hcs]
    rw [List.length_drop] at htail
    omega
  · obtain ⟨⟨b, a⟩, hemail, heq⟩ := Option.map_eq_some_iff.mp h
    cases heq
    obtain ⟨rules, dot, -, hhost⟩ := emailAround_eq_some hemail
    exact authorityEnd_le hhost
  · cases h

end Around

section Find

variable {f : Found}

lemma slice_around (done before after : List Char) (c : Char) (back ahead : Nat)
    (h : back ≤ before.length) :
    slice (done ++ before.reverse ++ c :: after) (done.length + before.length - back)
      (done.length + before.length + 1 + ahead) =
      (before.take back).reverse ++ c :: after.take ahead := by
  have hsplit : before.reverse = (before.drop back).reverse ++ (before.take back).reverse := by
    rw [← List.reverse_append, List.take_append_drop]
  have hstart : done.length + before.length - back =
      (done ++ (before.drop back).reverse).length := by
    rw [List.length_append, List.length_reverse, List.length_drop]
    omega
  have hlength : done.length + before.length + 1 + ahead -
      (done ++ (before.drop back).reverse).length =
        (before.take back).reverse.length + (ahead + 1) := by
    rw [List.length_append, List.length_reverse, List.length_reverse, List.length_drop,
      List.length_take]
    omega
  rw [hsplit, ← List.append_assoc, List.append_assoc _ _ (c :: after), slice, hstart, hlength,
    List.drop_left, List.take_length_add_append, List.take_succ_cons]

lemma allSolid_of_mem_findFrom {before rest done : List Char} {skip : Nat}
    (h : f ∈ findFrom before skip (done.length + before.length) rest) :
    AllSolid (slice (done ++ before.reverse ++ rest) f.start f.stop) := by
  induction rest generalizing before done skip with
  | nil => cases h
  | cons c rest ih =>
    -- What has been passed is behind the last literal or, if a literal goes on here, before it.
    have hpassed {skip : Nat} (h : f ∈ findFrom [] skip (done.length + before.length + 1) rest) :
        AllSolid (slice (done ++ before.reverse ++ c :: rest) f.start f.stop) := by
      have hrest := @ih [] (done ++ before.reverse ++ [c]) skip (by simpa [Nat.add_assoc] using h)
      simpa using hrest
    cases skip with
    | succ skip => exact hpassed h
    | zero =>
      rw [findFrom] at h
      split at h
      · next back ahead kind haround =>
        rcases List.mem_cons.mp h with rfl | hlater
        · obtain ⟨hback, hbefore, hafter⟩ := allSolid_around haround
          rw [slice_around done before rest c back ahead hback, allSolid_append]
          exact ⟨fun d hd => hbefore d (List.mem_reverse.mp hd), hafter⟩
        · exact hpassed hlater
      · have hrest := @ih (c :: before) done 0 (by simpa [Nat.add_assoc] using h)
        simpa using hrest

/-- There is no blank in a literal. -/
theorem allSolid_of_mem_find {cs : List Char} (h : f ∈ find cs) :
    AllSolid (slice cs f.start f.stop) := by
  have hsolid : AllSolid (slice ([] ++ [].reverse ++ cs) f.start f.stop) :=
    allSolid_of_mem_findFrom h
  simpa using hsolid

lemma stop_le_of_mem_findFrom {before rest : List Char} {skip i : Nat}
    (h : f ∈ findFrom before skip i rest) : f.stop ≤ i + rest.length := by
  induction rest generalizing before skip i with
  | nil => cases h
  | cons c rest ih =>
    rw [List.length_cons]
    cases skip with
    | succ skip =>
      have hlater := ih h
      omega
    | zero =>
      rw [findFrom] at h
      split at h
      · next back ahead kind haround =>
        rcases List.mem_cons.mp h with rfl | hmem
        · have hahead := ahead_le_of_around haround
          dsimp only
          omega
        · have hlater := ih hmem
          omega
      · have hlater := ih h
        omega

/-- A literal is within its text. -/
theorem stop_le_of_mem_find {cs : List Char} (h : f ∈ find cs) : f.stop ≤ cs.length := by
  have hle := stop_le_of_mem_findFrom h
  rwa [Nat.zero_add] at hle

lemma le_start_of_mem_findFrom {before rest : List Char} {skip i : Nat}
    (h : f ∈ findFrom before skip i rest) : i - before.length ≤ f.start := by
  induction rest generalizing before skip i with
  | nil => cases h
  | cons c rest ih =>
    have hpassed {skip : Nat} (h : f ∈ findFrom [] skip (i + 1) rest) :
        i - before.length ≤ f.start := by
      have hle := ih h
      rw [List.length_nil] at hle
      omega
    cases skip with
    | succ skip => exact hpassed h
    | zero =>
      rw [findFrom] at h
      split at h
      · next back ahead kind haround =>
        rcases List.mem_cons.mp h with rfl | hlater
        · have hback := (allSolid_around haround).1
          dsimp only
          omega
        · exact hpassed hlater
      · have hle := ih h
        rw [List.length_cons] at hle
        omega

end Find

section Marks

variable {n : Nat}

lemma localReach_replicate (m : Nat) :
    localReach (m + 1) false (m + 1) (List.replicate n '#') = some (m + 1 + n) := by
  induction n generalizing m with
  | zero => rfl
  | succ n ih =>
    rw [List.replicate_succ, localReach, if_pos (by decide), ih (m + 1)]
    exact congrArg some (by omega)

/-- The words in front of an at sign take in all of the marks before them or none. -/
lemma localReach_append_replicate (hn : 0 < n) {cs : List Char} {first k m : Nat} {boundary : Bool}
    (h : localReach first boundary m (cs ++ List.replicate n '#') = some k) (hfirst : first ≤ m) :
    k = m + cs.length + n ∨ k < m + cs.length := by
  induction cs generalizing first boundary m with
  | nil =>
    obtain ⟨j, rfl⟩ := Nat.exists_eq_succ_of_ne_zero (Nat.ne_of_gt hn)
    rw [List.nil_append, List.replicate_succ, localReach, if_pos (by decide),
      localReach_replicate] at h
    cases h
    left
    rw [List.length_nil]
    omega
  | cons c cs ih =>
    have hlength : (c :: cs).length = cs.length + 1 := List.length_cons
    have hsettle (h : localReach.settle first = some k) : k < m + (c :: cs).length := by
      have hk := eq_of_localReach_settle h
      omega
    rw [List.cons_append, localReach] at h
    split at h
    · have hrest := ih h (Nat.le_refl _)
      omega
    split at h
    · split at h
      · exact .inr (hsettle h)
      · have hrest := ih h (Nat.le_succ_of_le hfirst)
        omega
    split at h
    · cases h
    · exact .inr (hsettle h)

lemma findFrom_replicate (cs : List Char) (m : Nat) :
    findFrom (List.replicate m '#') 0 m (List.replicate n '#' ++ cs) =
      findFrom (List.replicate (m + n) '#') 0 (m + n) cs := by
  induction n generalizing m with
  | zero => rfl
  | succ n ih =>
    rw [List.replicate_succ, List.cons_append, findFrom]
    change findFrom ('#' :: List.replicate m '#') 0 (m + 1) (List.replicate n '#' ++ cs) = _
    rw [← List.replicate_succ, ih (m + 1), Nat.add_right_comm, Nat.add_assoc m]

variable {f : Found}

lemma email_start_of_mem_findFrom (hn : 0 < n) {passed rest : List Char} {skip : Nat}
    (h : f ∈ findFrom (passed ++ List.replicate n '#') skip (n + passed.length) rest)
    (hkind : f.kind = .email) : f.start = 0 ∨ n < f.start := by
  induction rest generalizing passed skip with
  | nil => cases h
  | cons c rest ih =>
    have hpassed {skip : Nat} (h : f ∈ findFrom [] skip (n + passed.length + 1) rest) :
        f.start = 0 ∨ n < f.start := by
      have hle := le_start_of_mem_findFrom h
      rw [List.length_nil] at hle
      omega
    cases skip with
    | succ skip => exact hpassed h
    | zero =>
      rw [findFrom] at h
      split at h
      · next back ahead kind haround =>
        rcases List.mem_cons.mp h with rfl | hlater
        · obtain rfl : kind = .email := hkind
          unfold around at haround
          split at haround
          · obtain ⟨p, -, heq⟩ := Option.map_eq_some_iff.mp haround
            cases heq
          · obtain ⟨p, -, heq⟩ := Option.map_eq_some_iff.mp haround
            cases heq
          · obtain ⟨p, hemail, heq⟩ := Option.map_eq_some_iff.mp haround
            cases heq
            obtain ⟨rules, dot, hstart, -⟩ := emailAround_eq_some hemail
            have hreach := localReach_append_replicate hn hstart (Nat.le_refl 0)
            dsimp only
            omega
          · cases haround
        · exact hpassed hlater
      · exact @ih (c :: passed) 0 (by simpa [Nat.add_assoc] using h)

/-- An address in a text that opens with marks begins at the first of them or behind them all, and
not right behind them. -/
theorem email_start_of_mem_find {cs : List Char} (h : f ∈ find (List.replicate n '#' ++ cs))
    (hkind : f.kind = .email) : f.start = 0 ∨ n < f.start := by
  rcases Nat.eq_zero_or_pos n with rfl | hn
  · exact Nat.eq_zero_or_pos f.start
  · rw [find, ← List.replicate_zero (a := '#'), findFrom_replicate, Nat.zero_add] at h
    exact @email_start_of_mem_findFrom n f hn [] cs 0 h hkind

end Marks

end Folio.Literal
