import Mathlib.Data.List.Perm.Basic
import JobBoard.Auth.Lineage

/-!
# Backup codes

A challenge reads the user's list of backup codes, compares the code with one hash
after the other and writes the rest of the list back. `Used` is what remains of the
list along a run, and which call has taken which of its entries. In the runs where no
two challenges with a backup code of one user overlap, every entry is taken once.
-/

set_option autoImplicit false

namespace JobBoard.Auth

open Txn Prog

/-- The stored list of the user. -/
def Db.backupCodes (d : Db) (userId : Id) : List String :=
  ((d.user? userId).bind (·.mfaBackupCodes)).getD []

/-! ## The condition -/

/-- The two calls are not challenges of one user with backup codes. -/
def codesApart (op op₁ : Op) : Bool :=
  match op, op₁ with
  | .verifyMfaChallenge mfaToken code, .verifyMfaChallenge mfaToken₁ code₁ =>
    MfaService.isTotp (removeSpaces code) || MfaService.isTotp (removeSpaces code₁) ||
      mfaToken.claims.sub ≠ mfaToken₁.claims.sub
  | _, _ => true

/-- No list of backup codes is another one in `d'`. -/
def sameCodes (d d' : Db) : Bool :=
  (d.users.rows ++ d'.users.rows).all fun u => d'.backupCodes u.id = d.backupCodes u.id

def Op.isChallenge : Op → Bool
  | .verifyMfaChallenge _ _ => true
  | _ => false

/-- Challenges with a backup code of one user do not overlap, and no other operation
changes a list of backup codes. -/
def challengesApart (s : RunState) : Step → Bool
  | .spawn op => (List.range s.ops.length).all fun j =>
      !(s.call j).isRunning || (s.ops[j]?).all fun op' => codesApart op' op
  | .step i => (s.ops[i]?).all fun op =>
      op.isChallenge || sameCodes s.db (store.applyAll s.db (s.issues i))
  | .fault _ _ => true

/-- What such a run gives: the list that a challenge has read stays as it is. -/
def apartChallenges (d₀ : Db) : Condition where
  start i _ L := ∀ g ∈ L, g.call ≠ i
  allowed _ op L g := ∀ mfaToken code, op = .verifyMfaChallenge mfaToken code →
    MfaService.isTotp (removeSpaces code) = false →
    (d₀.at (L ++ [g])).backupCodes mfaToken.claims.sub =
      (d₀.at L).backupCodes mfaToken.claims.sub
  fails _ _ _ := True

/-! ## Lists -/

section

variable {env : Environment} {d d' : Db} {u : Id}

theorem backupCodes_of_user {user : User} (h : d.user? u = some user) :
    d.backupCodes u = user.mfaBackupCodes.getD [] := by
  rw [Db.backupCodes, h, Option.bind_some]

theorem sameCodes_iff : sameCodes d d' = true ↔ ∀ u, d'.backupCodes u = d.backupCodes u := by
  simp only [sameCodes, List.all_eq_true, decide_eq_true_eq, List.mem_append]
  refine ⟨fun h u => ?_, fun h user _ => h user.id⟩
  -- a user of neither database has no codes
  cases hd : d.user? u with
  | some user =>
    have := h user (.inl (Table.mem_of_get? hd))
    rwa [Table.key_of_get? hd] at this
  | none =>
    cases hd' : d'.user? u with
    | some user =>
      have := h user (.inr (Table.mem_of_get? hd'))
      rwa [Table.key_of_get? hd'] at this
    | none => simp only [Db.backupCodes, hd, hd']

theorem users_frame {ws : List Write} (h : ∀ w ∈ ws, ¬ w.onUsers) :
    (store.applyAll d ws).users = d.users := by
  induction ws generalizing d with
  | nil => rfl
  | cons w ws ih =>
    have hw : (store.apply d w).users = d.users := by
      have hnot := h w List.mem_cons_self
      cases w <;> first | rfl | exact (hnot trivial).elim
    exact (ih fun x hx => h x (List.mem_cons_of_mem _ hx)).trans hw

theorem eraseIdx_ne {codes codes' : List String} {k : Nat} {hash : String}
    (hget : codes[k]? = some hash) (heq : codes' = codes.eraseIdx k) : codes' ≠ codes := by
  intro hsame
  have hlen := congrArg List.length (hsame.symm.trans heq)
  have hlt := (List.getElem?_eq_some_iff.1 hget).1
  rw [List.length_eraseIdx_of_lt hlt] at hlen
  omega

/-- A taken code is taken from the list of its user only. -/
theorem consume_codes {user : User} {k : Nat} :
    (store.applyAll d [consume user k]).backupCodes u =
      if u = user.id ∧ (d.user? u).isSome then (user.mfaBackupCodes.getD []).eraseIdx k
      else d.backupCodes u := by
  have hget : (store.applyAll d [consume user k]).user? u = _ := user?_consume
  rw [Db.backupCodes, hget]
  by_cases hu : u = user.id
  · cases hd : d.user? u with
    | none => simp [Db.backupCodes, hd]
    | some x => simp [hu, UserPatch.apply]
  · rw [if_neg hu, if_neg fun h => hu h.1]
    rfl

end

/-! ## Runs -/

section

variable {env : Environment} {d₀ : Db} {s : RunState} {i : Nat} {mfaToken : Jwt} {code : String}
  {l r L : Log} {g : Txn.Group Write} {user : User} {u : Id}

/-- The list stays as the challenge has read it. -/
theorem Meanwhile.codes
    (h : Meanwhile (apartChallenges d₀) i (.verifyMfaChallenge mfaToken code) l L)
    (hcode : MfaService.isTotp (removeSpaces code) = false) :
    (d₀.at L).backupCodes mfaToken.claims.sub = (d₀.at l).backupCodes mfaToken.claims.sub := by
  induction h with
  | refl => rfl
  | other _ _ ha ih => exact (ha mfaToken code rfl hcode).trans ih

/-- What taking the code `k`, as it was read, does to the list. -/
theorem Meanwhile.consumed
    (h : Meanwhile (apartChallenges d₀) i (.verifyMfaChallenge mfaToken code) l L)
    (huser : (d₀.at l).user? mfaToken.claims.sub = some user) {k : Nat}
    (hk : IsBackupCode env user code k) (hg : g.writes = [consume user k]) :
    ∃ hash, ((d₀.at L).backupCodes mfaToken.claims.sub)[k]? = some hash ∧
      env.argon2Verify hash (removeSpaces code) = some true ∧
      (d₀.at (L ++ [g])).backupCodes mfaToken.claims.sub =
        ((d₀.at L).backupCodes mfaToken.claims.sub).eraseIdx k ∧
      ∀ u, u ≠ mfaToken.claims.sub →
        (d₀.at (L ++ [g])).backupCodes u = (d₀.at L).backupCodes u := by
  obtain ⟨hcode, hash, hget, hverify⟩ := hk
  have hid : user.id = mfaToken.claims.sub := Table.key_of_get? huser
  have hcodes : (d₀.at L).backupCodes mfaToken.claims.sub = user.mfaBackupCodes.getD [] :=
    (h.codes hcode).trans (backupCodes_of_user huser)
  have hsome : ((d₀.at L).user? mfaToken.claims.sub).isSome = true := by
    cases hd : (d₀.at L).user? mfaToken.claims.sub with
    | some x => rfl
    | none =>
      rw [Db.backupCodes, hd, Option.bind_none, Option.getD_none] at hcodes
      rw [← hcodes] at hget
      cases hget
  refine ⟨hash, by rw [hcodes]; exact hget, hverify, ?_, fun u hu => ?_⟩
  · rw [Db.at_snoc, hg, consume_codes, if_pos ⟨hid.symm, hsome⟩, hcodes]
  · rw [Db.at_snoc, hg, consume_codes, if_neg fun h => hu (h.1.trans hid)]

theorem challengesApart_history :
    History (system env) (fun s l => challengesApart s l = true)
      (conduct env d₀ (apartChallenges d₀)) d₀ := by
  refine sessions ?_ ?_ (fun _ _ _ _ => trivial) fun _ _ => trivial
  · intro s op _ hk _ g hg
    exact Nat.ne_of_lt (hk.fresh.log g hg)
  · rintro s i op j _ hw hk hok hi hj hij hrun hissues hpub mfaToken code rfl hcode
    have hdb : s.db = d₀.at s.log := hk.db
    have hirun : (s.call i).isRunning = true := by
      cases hc : s.call i with
      | run tx p => rfl
      | _ => exact (hissues (by simp only [State.issues, hc])).elim
    simp only [challengesApart, hi, Option.all_some, Bool.or_eq_true] at hok
    rcases hok with hchallenge | hsame
    · cases op with
      | verifyMfaChallenge mfaToken' code' =>
        by_cases hon : ∃ w ∈ s.issues i, w.onUsers
        · -- another challenge takes a code: it is one of another user
          obtain ⟨w, hmem, hon⟩ := hon
          obtain ⟨l, user, k, -, hm, huser, hback, hws⟩ := hpub.consume w hmem hon
          obtain ⟨-, -, -, -, hothers⟩ := hm.consumed (g := ⟨i, false, s.issues i⟩) huser hback hws
          refine hothers _ fun hsub => ?_
          have hapart := hw.exclusive (R := fun a b => codesApart a b = true)
            (fun {a b} h => by
              cases a <;> cases b <;> first | rfl | skip
              simp only [codesApart, Bool.or_eq_true, decide_eq_true_eq] at h ⊢
              rcases h with (h | h) | h
              · exact .inl (.inr h)
              · exact .inl (.inl h)
              · exact .inr (Ne.symm h))
            (fun {s op} h i op' hop' hrun' => by
              have hlt := (List.getElem?_eq_some_iff.1 hop').1
              have := List.all_eq_true.1 h i (List.mem_range.2 hlt)
              simpa only [hrun', hop', Bool.not_true, Bool.false_or, Option.all_some] using this)
            hi hj (Ne.symm hij) hirun hrun
          simp only [codesApart, hback.1, hcode, hsub, ne_eq, not_true_eq_false, decide_false,
            Bool.or_self] at hapart
          cases hapart
        · have husers : (d₀.at (s.log ++ [⟨i, false, s.issues i⟩])).users = (d₀.at s.log).users := by
            rw [Db.at_snoc]
            exact users_frame fun w hmem hon' => hon ⟨w, hmem, hon'⟩
          simp only [Db.backupCodes, Db.user?, husers]
      | _ => cases hchallenge
    · rw [hdb] at hsame
      rw [Db.at_snoc]
      exact sameCodes_iff.1 hsame _

end

/-! ## Single use -/

section

variable (env : Environment) (d₀ : Db) (s : RunState) (u : Id)

/-- Which call has taken which entry of the list of the user: every group of the log leaves
the list as it is, or takes the one entry that the code of its challenge verifies against. -/
inductive Used : Log → List (Nat × String) → Prop
  | nil : Used [] []
  | other {L : Log} {g : Txn.Group Write} {used : List (Nat × String)} : Used L used →
      (d₀.at (L ++ [g])).backupCodes u = (d₀.at L).backupCodes u → Used (L ++ [g]) used
  | take {L : Log} {g : Txn.Group Write} {used : List (Nat × String)} {mfaToken : Jwt} {code hash : String}
      {k : Nat} : Used L used → s.ops[g.call]? = some (.verifyMfaChallenge mfaToken code) →
      mfaToken.claims.sub = u → env.argon2Verify hash (removeSpaces code) = some true →
      ((d₀.at L).backupCodes u)[k]? = some hash →
      (d₀.at (L ++ [g])).backupCodes u = ((d₀.at L).backupCodes u).eraseIdx k →
      Used (L ++ [g]) (used ++ [(g.call, hash)])

/-- The accepted challenges and the stored list share the initial list out among them. -/
def CodesUsedOnce : Prop :=
  ∃ used, Used env d₀ s u s.log used ∧
    (used.map (·.2) ++ s.db.backupCodes u).Perm (d₀.backupCodes u) ∧
    (used.map (·.1)).Nodup ∧
    (∀ l, l <+: s.log → (s.db.backupCodes u).Sublist ((d₀.at l).backupCodes u)) ∧
    ∀ i mfaToken code r, s.ops[i]? = some (.verifyMfaChallenge mfaToken code) →
      mfaToken.claims.sub = u → MfaService.isTotp (removeSpaces code) = false →
      s.call i = .done (.ok r) →
      ∃ hash, (i, hash) ∈ used ∧ env.argon2Verify hash (removeSpaces code) = some true

end

section

variable {env : Environment} {d₀ : Db} {s : RunState} {u : Id} {L : Log}
  {used : List (Nat × String)}

theorem Used.perm (h : Used env d₀ s u L used) :
    (used.map (·.2) ++ (d₀.at L).backupCodes u).Perm (d₀.backupCodes u) := by
  induction h with
  | nil => exact .refl _
  | other _ heq ih => rwa [heq]
  | @take L g used mfaToken code hash k _ _ _ _ hget heq ih =>
    refine List.Perm.trans ?_ ih
    obtain ⟨hlt, hhash⟩ := List.getElem?_eq_some_iff.1 hget
    rw [List.map_append, List.append_assoc, heq, ← hhash]
    exact List.Perm.append_left _ (List.getElem_cons_eraseIdx_perm hlt)

theorem Used.sublist (h : Used env d₀ s u L used) {l : Log} (hl : l <+: L) :
    ((d₀.at L).backupCodes u).Sublist ((d₀.at l).backupCodes u) := by
  induction h with
  | nil =>
    rw [List.prefix_nil.1 hl]
  | @other L g used _ heq ih =>
    rcases List.prefix_concat_iff.1 hl with rfl | hl
    · exact List.Sublist.refl _
    · rw [heq]
      exact ih hl
  | @take L g used mfaToken code hash k _ _ _ _ hget heq ih =>
    rcases List.prefix_concat_iff.1 hl with rfl | hl
    · exact List.Sublist.refl _
    · rw [heq]
      exact (List.eraseIdx_sublist _ _).trans (ih hl)

/-- Every call that has taken an entry has changed the list, and is one of the log. -/
theorem Used.call (h : Used env d₀ s u L used) {i : Nat} {hash : String} (hi : (i, hash) ∈ used) :
    ∃ l g r, L = l ++ g :: r ∧ g.call = i ∧
      (d₀.at (l ++ [g])).backupCodes u ≠ (d₀.at l).backupCodes u := by
  induction h with
  | nil => cases hi
  | @other L g used _ _ ih =>
    obtain ⟨l, g', r, rfl, hg, hne⟩ := ih hi
    exact ⟨l, g', r ++ [g], by simp, hg, hne⟩
  | @take L g used mfaToken code hash' k _ _ _ _ hget heq ih =>
    rcases List.mem_append.1 hi with hi | hi
    · obtain ⟨l, g', r, rfl, hg, hne⟩ := ih hi
      exact ⟨l, g', r ++ [g], by simp, hg, hne⟩
    · cases List.mem_singleton.1 hi
      exact ⟨L, g, [], rfl, rfl, eraseIdx_ne hget heq⟩

/-- A group that changes the list has taken an entry. -/
theorem Used.taken (h : Used env d₀ s u L used) {l r : Log} {g : Txn.Group Write}
    (hL : L = l ++ g :: r) (hne : (d₀.at (l ++ [g])).backupCodes u ≠ (d₀.at l).backupCodes u) :
    ∃ mfaToken code hash, s.ops[g.call]? = some (.verifyMfaChallenge mfaToken code) ∧
      (g.call, hash) ∈ used ∧ env.argon2Verify hash (removeSpaces code) = some true := by
  induction h generalizing r with
  | nil => simp at hL
  | other _ heq ih =>
    rcases snoc_split hL with ⟨rfl, rfl, -⟩ | ⟨r', -, hL⟩
    · exact (hne heq).elim
    · exact ih hL
  | @take L g' used mfaToken code hash k _ hop _ hverify _ _ ih =>
    rcases snoc_split hL with ⟨rfl, rfl, -⟩ | ⟨r', -, hL⟩
    · exact ⟨mfaToken, code, hash, hop, List.mem_append_right _ (List.mem_singleton.2 rfl), hverify⟩
    · obtain ⟨mfaToken, code, hash, hop, hmem, hv⟩ := ih hL
      exact ⟨mfaToken, code, hash, hop, List.mem_append_left _ hmem, hv⟩

end

section

variable {env : Environment} {d₀ : Db} {s : RunState} {u : Id} {l r : Log} {g : Txn.Group Write}

theorem Meanwhile.none_own {C : Condition} {i : Nat} {op : Op} {L : Log}
    (h : Meanwhile C i op l L) (hl : ∀ g ∈ l, g.call ≠ i) : ∀ g ∈ L, g.call ≠ i := by
  induction h with
  | refl => exact hl
  | other _ hg _ ih =>
    intro g' hg'
    rcases List.mem_append.1 hg' with hg' | hg'
    · exact ih g' hg'
    · rw [List.mem_singleton.1 hg']
      exact hg

variable (h : (system env).Within (fun s l => challengesApart s l = true) d₀ s)

include h

/-- What one group does to the list of the user. -/
theorem codes_step (u : Id) (hlog : s.log = l ++ g :: r) :
    (d₀.at (l ++ [g])).backupCodes u = (d₀.at l).backupCodes u ∨
    ∃ mfaToken code k hash, s.ops[g.call]? = some (.verifyMfaChallenge mfaToken code) ∧
      mfaToken.claims.sub = u ∧ env.argon2Verify hash (removeSpaces code) = some true ∧
      ((d₀.at l).backupCodes u)[k]? = some hash ∧
      (d₀.at (l ++ [g])).backupCodes u = ((d₀.at l).backupCodes u).eraseIdx k ∧
      ∀ g' ∈ l, g'.call ≠ g.call := by
  have hk := kept challengesApart_history h
  obtain ⟨-, op, hop, -, hpub⟩ := hk.log hlog
  have hcond := challengesApart_history.logged (fun _ hg => nomatch hg)
    (P := fun _ op L ws => op.isChallenge = true ∨
      sameCodes (d₀.at L) (store.applyAll (d₀.at L) ws) = true)
    (fun {s i op} _ hk hok hi => by
      have hdb : s.db = d₀.at s.log := hk.db
      simpa only [challengesApart, hi, hdb, Option.all_some, Bool.or_eq_true] using hok) h hlog
  obtain ⟨op', hop', hcond⟩ := hcond
  rw [hop] at hop'
  cases hop'
  rcases hcond with hchallenge | hsame
  · cases op with
    | verifyMfaChallenge mfaToken code =>
      by_cases hon : ∃ w ∈ g.writes, w.onUsers
      · obtain ⟨w, hmem, hon⟩ := hon
        obtain ⟨l', user, k, ⟨l₀, hstart, hm₀⟩, hm, huser, hback, hws⟩ := hpub.consume w hmem hon
        obtain ⟨hash, hget, hverify, hcodes, hothers⟩ := hm.consumed huser hback hws
        by_cases hu : u = mfaToken.claims.sub
        · subst hu
          exact .inr ⟨mfaToken, code, k, hash, hop, rfl, hverify, hget, hcodes,
            (hm₀.trans hm).none_own hstart⟩
        · exact .inl (hothers u hu)
      · left
        have husers : (d₀.at (l ++ [g])).users = (d₀.at l).users := by
          rw [Db.at_snoc]
          exact users_frame fun w hmem hon' => hon ⟨w, hmem, hon'⟩
        simp only [Db.backupCodes, Db.user?, husers]
    | _ => cases hchallenge
  · rw [Db.at_snoc]
    exact .inl (sameCodes_iff.1 hsame u)

/-- The entries taken in a prefix of the log, each by another call. -/
theorem used_exists (u : Id) {L : Log} (hL : L <+: s.log) :
    ∃ used, Used env d₀ s u L used ∧ (used.map (·.1)).Nodup := by
  induction L using List.reverseRecOn with
  | nil => exact ⟨[], .nil, List.nodup_nil⟩
  | append_singleton L g ih =>
    obtain ⟨used, hused, hnodup⟩ := ih ((List.prefix_append _ _).trans hL)
    obtain ⟨r, hr⟩ := hL
    have hlog : s.log = L ++ g :: r := by
      rw [← hr, List.append_assoc]
      rfl
    rcases codes_step h u hlog with hsame |
      ⟨mfaToken, code, k, hash, hop, hsub, hverify, hget, hcodes, hfirst⟩
    · exact ⟨used, .other hused hsame, hnodup⟩
    · refine ⟨used ++ [(g.call, hash)], .take hused hop hsub hverify hget hcodes, ?_⟩
      rw [List.map_append, List.map_singleton, List.nodup_append]
      refine ⟨hnodup, by simp, ?_⟩
      intro i hi j hj
      obtain ⟨⟨i', hash'⟩, hmem, rfl⟩ := List.mem_map.1 hi
      obtain ⟨l, g', r', rfl, hcall, -⟩ := hused.call hmem
      rw [List.mem_singleton.1 hj, ← hcall]
      exact hfirst g' (by simp)

/-- A challenge that is accepted with a backup code has taken an entry. -/
theorem accepted_takes {i : Nat} {mfaToken : Jwt} {code : String} {x : Result}
    (hop : s.ops[i]? = some (.verifyMfaChallenge mfaToken code))
    (hcode : MfaService.isTotp (removeSpaces code) = false) (hdone : s.call i = .done (.ok x)) :
    ∃ l r g, s.log = l ++ g :: r ∧ g.call = i ∧
      (d₀.at (l ++ [g])).backupCodes mfaToken.claims.sub ≠
        (d₀.at l).backupCodes mfaToken.claims.sub := by
  have hk := kept challengesApart_history h
  obtain ⟨op, hop', hret⟩ := kept_returns hk hdone
  rw [hop] at hop'
  cases hop'
  obtain ⟨t, user, rfl, now, hpub, -⟩ := hret
  obtain ⟨L, R, hlog⟩ := List.append_of_mem hpub
  obtain ⟨-, op, hop', -, hissue⟩ := kept_issued hk hlog (List.mem_singleton.2 rfl)
  rw [hop] at hop'
  cases hop'
  obtain ⟨l, m, m', user, now, -, hm, hmm', hL, huser, -⟩ := hissue
  rcases hmm' with ⟨htotp, -⟩ | ⟨k, hback, rfl⟩
  · rw [hcode] at htotp
    cases htotp
  · obtain ⟨hash, hget, -, hcodes, -⟩ :=
      hm.consumed (g := ⟨i, false, [consume user k]⟩) huser hback rfl
    obtain ⟨r, hr⟩ := hL.onto.trans (log_onto hlog)
    refine ⟨m, r, ⟨i, false, [consume user k]⟩, ?_, rfl, eraseIdx_ne hget hcodes⟩
    rw [← hr, List.append_assoc]
    rfl

end

/-- Where challenges of one user do not overlap, each backup code is accepted once. -/
theorem backup_codes_used_once (env : Environment) {d₀ : Db} {s : RunState}
    (h : (system env).Within (fun s l => challengesApart s l = true) d₀ s) (u : Id) :
    CodesUsedOnce env d₀ s u := by
  have hk := kept challengesApart_history h
  have hdb : s.db = d₀.at s.log := hk.db
  obtain ⟨used, hused, hnodup⟩ := used_exists h u List.prefix_rfl
  refine ⟨used, hused, hdb ▸ hused.perm, hnodup, fun l hl => hdb ▸ hused.sublist hl, ?_⟩
  rintro i mfaToken code x hop rfl hcode hdone
  obtain ⟨l, r, g, hlog, rfl, hne⟩ := accepted_takes h hop hcode hdone
  obtain ⟨mfaToken', code', hash, hop', hmem, hverify⟩ := hused.taken hlog hne
  rw [hop] at hop'
  cases hop'
  exact ⟨hash, hmem, hverify⟩

theorem backup_codes_used_once_both :
    ∃ s, (system .default).Within (fun s l => challengesApart s l = true) oneMfaUser s ∧
      s.db.backupCodes 1 = [] ∧ CodesUsedOnce .default oneMfaUser s 1 := by
  have hrun : ((system .default).runIf challengesApart (State.init oneMfaUser)
      (alone 0 (.verifyMfaChallenge (AuthService.issueMfaChallengeToken .default 1 0) "code-a") 9 ++
        alone 1 (.verifyMfaChallenge
          (AuthService.issueMfaChallengeToken .default 1 0) "code-b") 9)).map
      (fun s => s.db.backupCodes 1) = some [] := by decide
  obtain ⟨s, h, hcodes⟩ := System.within_of_run hrun
  exact ⟨s, h, hcodes, backup_codes_used_once .default h 1⟩

/-- Two challenges with one code that have read the list before either has written it. -/
theorem backup_code_accepted_twice :
    ∃ s, (system .default).Reachable oneMfaUser s ∧ ¬ CodesUsedOnce .default oneMfaUser s 1 := by
  have hrun : ((system .default).runLabels .all (State.init oneMfaUser)
      (alone 0 (.verifyMfaChallenge (AuthService.issueMfaChallengeToken .default 1 0) "code-a") 3 ++
        alone 1 (.verifyMfaChallenge
          (AuthService.issueMfaChallengeToken .default 1 0) "code-a") 9 ++
        List.replicate 6 (.step 0))).map
      (fun s => decide (s.db.backupCodes 1 = ["code-b"] ∧
        (∀ i < 2, s.ops[i]? = some (.verifyMfaChallenge
          (AuthService.issueMfaChallengeToken .default 1 0) "code-a")) ∧
        ∀ i < 2, (match s.call i with | .done (.ok _) => true | _ => false) = true)) =
      some true := by decide
  obtain ⟨s, h, hs⟩ := System.reach_of_run hrun
  obtain ⟨hcodes, hop, hdone⟩ := of_decide_eq_true hs
  refine ⟨s, h, ?_⟩
  rintro ⟨used, -, hperm, -, -, haccepted⟩
  -- both calls have taken an entry, but one entry is gone
  have taken : ∀ i, i < 2 → ∃ hash, (i, hash) ∈ used := by
    intro i hi
    have hd := hdone i hi
    split at hd
    · next r hr =>
      obtain ⟨hash, hmem, -⟩ := haccepted i _ _ r (hop i hi) rfl (by decide) hr
      exact ⟨hash, hmem⟩
    · cases hd
  obtain ⟨x, hx⟩ := taken 0 (by omega)
  obtain ⟨y, hy⟩ := taken 1 (by omega)
  have hlen := hperm.length_eq
  rw [hcodes, List.length_append, List.length_map] at hlen
  have hone : used.length = 1 := by
    have htwo : (oneMfaUser.backupCodes 1).length = 2 := by decide
    rw [htwo, List.length_singleton] at hlen
    omega
  obtain ⟨a, rfl⟩ := List.length_eq_one_iff.1 hone
  have hxy := (List.mem_singleton.1 hx).trans (List.mem_singleton.1 hy).symm
  cases hxy

end JobBoard.Auth
