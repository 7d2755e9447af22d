import NextKey.Ipc.WriteEpoch

/-!
# Stages of two writes

Two processes write the shared state once each. Only the epoch and the generation matter here: a write
loads an even epoch, stores the next odd one, stores its generation at some point of its copy, and
stores the next even epoch. The stages say which epochs and generations the two can leave, from epoch
`e` and generation `g` on: one write after the other, or both from the same epoch.
-/

namespace NextKey

/-- How far a process is with its write: what it stores as generation, its odd epoch, and whether its
    copy has stored the generation. -/
inductive Progress where
  | before
  | begun (gen : BitVec 8)
  | marking (gen : BitVec 8) (seq : BitVec 32)
  | copying (gen : BitVec 8) (seq : BitVec 32) (stored : Bool)
  | finished (gen : BitVec 8)

namespace Progress

/-- The generation it stores. -/
def gen : Progress → Option (BitVec 8)
  | .before => none
  | .begun x | .marking x _ | .copying x _ _ | .finished x => some x

/-- It has loaded the epoch. -/
def loaded : Progress → Bool
  | .before | .begun _ => false
  | _ => true

/-- It has stored its odd epoch. -/
def marked : Progress → Bool
  | .copying _ _ _ | .finished _ => true
  | _ => false

/-- It has stored its generation. -/
def stored : Progress → Bool
  | .copying _ _ stored => stored
  | .finished _ => true
  | _ => false

def isCopying : Progress → Bool
  | .copying _ _ _ => true
  | _ => false

def isFinished : Progress → Bool
  | .finished _ => true
  | _ => false

/-- Who has stored has marked. -/
lemma marked_of_stored {p : Progress} (h : p.stored) : p.marked := by
  cases p <;> first | rfl | cases h

/-- Who has finished has stored. -/
lemma stored_of_finished {p : Progress} (h : p.isFinished) : p.stored := by
  cases p <;> first | rfl | cases h

/-- Who has marked has loaded. -/
lemma loaded_of_marked {p : Progress} (h : p.marked) : p.loaded := by
  cases p <;> first | rfl | cases h

/-- A finished saver has published a generation. -/
lemma isFinished_iff {p : Progress} : p.isFinished ↔ ∃ x, p = .finished x := by
  cases p <;> simp [isFinished]

/-- A process goes on, and does not take back what it has done. -/
structure Grows (p p' : Progress) : Prop where
  gen : ∀ x, p.gen = some x → p'.gen = some x
  loaded : p.loaded → p'.loaded
  marked : p.marked → p'.marked
  stored : p.stored → p'.stored
  finished : p.isFinished → p'.isFinished

/-- Nothing has moved. -/
lemma Grows.refl {p : Progress} : Grows p p := ⟨fun _ h => h, id, id, id, id⟩

/-- A saver begins. -/
lemma Grows.begin {x : BitVec 8} : Grows .before (.begun x) := ⟨nofun, nofun, nofun, nofun, nofun⟩

/-- A step of a write on the epoch and the generation. -/
inductive Move (epoch : BitVec 32) (gen : BitVec 8) :
    Progress → BitVec 32 → BitVec 8 → Progress → Prop where
  | load {x} (heven : Seqlock.odd epoch = false) :
    Move epoch gen (.begun x) epoch gen (.marking x (epoch + 1))
  | mark {x seq} : Move epoch gen (.marking x seq) seq gen (.copying x seq false)
  | store {x seq} : Move epoch gen (.copying x seq false) epoch x (.copying x seq true)
  | finish {x seq} : Move epoch gen (.copying x seq true) (seq + 1) gen (.finished x)

/-- A move is progress. -/
lemma Move.grows {epoch epoch' gen gen' p p'} (h : Move epoch gen p epoch' gen' p') : Grows p p' := by
  cases h <;> exact ⟨fun _ h => h, by simp [Progress.loaded], by simp [Progress.marked],
    by simp [Progress.stored], by simp [Progress.isFinished]⟩

/-- A write that begins with the epoch `old` and the generation `gold`, alone. -/
def At (old : BitVec 32) (gold : BitVec 8) (epoch : BitVec 32) (gen : BitVec 8) : Progress → Prop
  | .marking _ seq => seq = old + 1 ∧ epoch = old ∧ gen = gold
  | .copying x seq stored => seq = old + 1 ∧ epoch = old + 1 ∧ gen = if stored then x else gold
  | .finished x => epoch = old + 1 + 1 ∧ gen = x
  | _ => False

/-- A write from epoch `e` on, of generation `g + 1`. -/
def Over (e : BitVec 32) (g : BitVec 8) : Progress → Prop
  | .marking x seq | .copying x seq _ => x = g + 1 ∧ seq = e + 1
  | .finished x => x = g + 1
  | _ => False

/-- Who is in its place has loaded. -/
lemma At.loaded {old gold epoch gen} {p : Progress} (h : At old gold epoch gen p) : p.loaded := by
  cases p <;> first | rfl | cases h

/-- Who is over has loaded. -/
lemma Over.loaded {e g} {p : Progress} (h : Over e g p) : p.loaded := by
  cases p <;> first | rfl | cases h

/-- Who is over has the next generation. -/
lemma Over.gen {e g} {p : Progress} (h : Over e g p) : p.gen = some (g + 1) := by
  cases p with
  | marking | copying => exact congrArg some h.1
  | finished => exact congrArg some h
  | _ => cases h

/-- A write alone takes a step. -/
lemma At.move {old gold epoch gen epoch' gen'} {p p' : Progress} (h : At old gold epoch gen p)
    (hmove : Move epoch gen p epoch' gen' p') : At old gold epoch' gen' p' := by
  cases hmove with
  | load => cases h
  | mark =>
    obtain ⟨rfl, rfl, rfl⟩ := h
    exact ⟨rfl, rfl, rfl⟩
  | store =>
    obtain ⟨rfl, rfl, -⟩ := h
    exact ⟨rfl, rfl, rfl⟩
  | finish =>
    obtain ⟨rfl, rfl, rfl⟩ := h
    exact ⟨rfl, rfl⟩

/-- Who is over stays so. -/
lemma Over.move {e g epoch gen epoch' gen'} {p p' : Progress} (h : Over e g p)
    (hmove : Move epoch gen p epoch' gen' p') : Over e g p' := by
  cases hmove with
  | load => cases h
  | mark | store => exact h
  | finish => exact h.1

end Progress

open Progress

/-- Where two writes stand, by the epoch and the generation in memory. -/
inductive Stage (e : BitVec 32) (g : BitVec 8) (epoch : BitVec 32) (gen : BitVec 8)
    (P : Bool → Progress) : Prop where
  | none (hP : ∀ b, (P b).loaded = false) (hepoch : epoch = e) (hgen : gen = g)
  | one (a : Bool) (ha : At e g epoch gen (P a)) (hb : (P !a).loaded = false)
  | turn (a : Bool) (ha : P a = .finished (g + 1)) (hb : At (e + 1 + 1) (g + 1) epoch gen (P !a))
  | overlap (hP : ∀ b, Over e g (P b))
    (hepoch : epoch = e ∧ (∀ b, (P b).marked = false) ∨ epoch = e + 1 ∧ (∃ b, (P b).isCopying) ∨
      epoch = e + 1 + 1 ∧ ∃ b, (P b).isFinished)
    (hgen : gen = g + 1 ∧ (∃ b, (P b).stored) ∨ gen = g ∧ ∀ b, (P b).stored = false)

/-- A process stores the next generation, or the one after that of the other. -/
def Gens (g : BitVec 8) (P : Bool → Progress) : Prop :=
  ∀ b x, (P b).gen = some x → x = g + 1 ∨ x = g + 1 + 1 ∧ (P !b).stored

/-- One of two savers, or the other. -/
lemma eq_or_eq_not (a b : Bool) : b = a ∨ b = !a := by
  cases a <;> cases b <;> simp

/-- After an even epoch comes an odd one. -/
lemma odd_next {e : BitVec 32} (he : Seqlock.odd e = false) : Seqlock.odd (e + 1) = true := by
  rw [odd_add_one, he]
  rfl

/-- And after that an even one. -/
lemma odd_next_next {e : BitVec 32} (he : Seqlock.odd e = false) : Seqlock.odd (e + 1 + 1) = false := by
  rw [odd_add_one, odd_next he]
  rfl

section
variable {e epoch epoch' : BitVec 32} {g gen gen' : BitVec 8} {P : Bool → Progress} {b : Bool}
  {p : Progress}

/-- What the first of two writes stores. -/
lemma Gens.eq_next {x : BitVec 8} (h : Gens g P) (hb : (P !b).stored = false)
    (hx : (P b).gen = some x) : x = g + 1 := by
  obtain hx | ⟨-, hstored⟩ := h b x hx
  · exact hx
  · rw [hb] at hstored
    cases hstored

/-- The generations stay in order when none changes. -/
lemma Gens.of_grows {P' : Bool → Progress} (h : Gens g P) (hgrows : ∀ b, Grows (P b) (P' b))
    (hgen : ∀ b, (P' b).gen = (P b).gen) : Gens g P' := by
  intro b x hx
  obtain hx | ⟨hx, hstored⟩ := h b x ((hgen b).symm.trans hx)
  · exact .inl hx
  · exact .inr ⟨hx, (hgrows !b).stored hstored⟩

/-- Who has not loaded has not marked. -/
lemma not_marked {p : Progress} (h : p.loaded = false) : p.marked = false := by
  cases p <;> first | rfl | cases h

/-- Who has not marked has not stored. -/
lemma not_stored {p : Progress} (h : p.marked = false) : p.stored = false := by
  cases p <;> first | rfl | cases h

/-- An update of the other saver leaves this one. -/
lemma update_self_not {a : Bool} {p : Progress} : Function.update P (!a) p a = P a := by
  cases a <;> rfl

/-- An update of this saver leaves the other one. -/
lemma update_not_self {a : Bool} {p : Progress} : Function.update P a p (!a) = P !a := by
  cases a <;> rfl

/-- All are over after one of them has moved. -/
lemma Over.update {a : Bool} (hP : ∀ b, Over e g (P b)) (hp : Over e g p) :
    ∀ b, Over e g (Function.update P a p b) := by
  intro b
  obtain rfl | rfl := eq_or_eq_not a b
  · rw [Function.update_self]
    exact hp
  · rw [update_not_self]
    exact hP _

/-- A process loads an even epoch: alone, after the other, or together with it. -/
lemma Stage.load {x : BitVec 8} (h : Stage e g epoch gen P) (hgens : Gens g P)
    (he : Seqlock.odd e = false) (heven : Seqlock.odd epoch = false) (hb : P b = .begun x) :
    Stage e g epoch gen (Function.update P b (.marking x (epoch + 1))) := by
  have hload : (P b).loaded = false := by rw [hb]; rfl
  have hstored : (P b).stored = false := by rw [hb]; rfl
  have hx : (P b).gen = some x := by rw [hb]; rfl
  cases h with
  | none hP hepoch hgen =>
    refine .one b ?_ ?_
    · rw [Function.update_self]
      exact ⟨congrArg (· + 1) hepoch, hepoch, hgen⟩
    · rw [update_not_self]
      exact hP !b
  | one a ha hother =>
    obtain rfl | rfl := eq_or_eq_not a b
    · rw [ha.loaded] at hload
      cases hload
    · have hnext : ∀ y, (P a).gen = some y → y = g + 1 := fun y hy => hgens.eq_next hstored hy
      cases hp : P a with
      | before | begun =>
        rw [hp] at ha
        cases ha
      | marking y seq =>
        rw [hp] at ha hnext
        obtain ⟨rfl, rfl, rfl⟩ := ha
        have hothers : (P !!a).stored = false := by rw [Bool.not_not, hp]; rfl
        refine .overlap ?_ (.inl ⟨rfl, ?_⟩) (.inr ⟨rfl, ?_⟩)
        · intro b
          obtain rfl | rfl := eq_or_eq_not a b
          · rw [update_self_not, hp]
            exact ⟨hnext y rfl, rfl⟩
          · rw [Function.update_self]
            exact ⟨hgens.eq_next hothers hx, rfl⟩
        all_goals
          intro b
          obtain rfl | rfl := eq_or_eq_not a b
          · rw [update_self_not, hp]
            rfl
          · rw [Function.update_self]
            rfl
      | copying y seq stored =>
        rw [hp] at ha
        obtain ⟨-, rfl, -⟩ := ha
        rw [odd_next he] at heven
        cases heven
      | finished y =>
        rw [hp] at ha hnext
        obtain ⟨rfl, rfl⟩ := ha
        obtain rfl := hnext gen rfl
        refine .turn a ?_ ?_
        · rw [update_self_not, hp]
        · rw [Function.update_self]
          exact ⟨rfl, rfl, rfl⟩
  | turn a ha hother =>
    obtain rfl | rfl := eq_or_eq_not a b
    · rw [ha] at hb
      cases hb
    · rw [hother.loaded] at hload
      cases hload
  | overlap hP =>
    rw [(hP b).loaded] at hload
    cases hload

/-- A process that has loaded the epoch goes on. -/
lemma Stage.move (h : Stage e g epoch gen P) (hb : (P b).loaded)
    (hmove : Move epoch gen (P b) epoch' gen' p) : Stage e g epoch' gen' (Function.update P b p) := by
  cases h with
  | none hP =>
    rw [hP b] at hb
    cases hb
  | one a ha hother =>
    obtain rfl | rfl := eq_or_eq_not a b
    · refine .one b ?_ ?_
      · rw [Function.update_self]
        exact ha.move hmove
      · rw [update_not_self]
        exact hother
    · rw [hother] at hb
      cases hb
  | turn a ha hother =>
    obtain rfl | rfl := eq_or_eq_not a b
    · rw [ha] at hmove
      cases hmove
    · refine .turn a ?_ ?_
      · rw [update_self_not, ha]
      · rw [Function.update_self]
        exact hother.move hmove
  | overlap hP hepoch hgen =>
    have hP' : ∀ c, Over e g (Function.update P b p c) := Over.update hP ((hP b).move hmove)
    have hover := hP b
    generalize hp : P b = q at hmove hover hb
    cases hmove with
    | load => cases hb
    | mark =>
      obtain ⟨-, rfl⟩ := hover
      refine .overlap hP' (.inr (.inl ⟨rfl, b, ?_⟩)) ?_
      · rw [Function.update_self]
        rfl
      · obtain ⟨hgen, c, hc⟩ | ⟨hgen, hnone⟩ := hgen
        · refine .inl ⟨hgen, c, ?_⟩
          obtain rfl | rfl := eq_or_eq_not b c
          · rw [hp] at hc
            cases hc
          · rw [update_not_self]
            exact hc
        · refine .inr ⟨hgen, fun c => ?_⟩
          obtain rfl | rfl := eq_or_eq_not b c
          · rw [Function.update_self]
            rfl
          · rw [update_not_self]
            exact hnone _
    | store =>
      obtain ⟨rfl, -⟩ := hover
      refine .overlap hP' ?_ (.inl ⟨rfl, b, by rw [Function.update_self]; rfl⟩)
      obtain ⟨-, hnone⟩ | ⟨hepoch, -⟩ | ⟨hepoch, c, hc⟩ := hepoch
      · have hmarked := hnone b
        rw [hp] at hmarked
        cases hmarked
      · exact .inr (.inl ⟨hepoch, b, by rw [Function.update_self]; rfl⟩)
      · refine .inr (.inr ⟨hepoch, c, ?_⟩)
        obtain rfl | rfl := eq_or_eq_not b c
        · rw [hp] at hc
          cases hc
        · rw [update_not_self]
          exact hc
    | finish =>
      obtain ⟨-, rfl⟩ := hover
      refine .overlap hP' (.inr (.inr ⟨rfl, b, by rw [Function.update_self]; rfl⟩)) ?_
      obtain ⟨hgen, -⟩ | ⟨-, hnone⟩ := hgen
      · exact .inl ⟨hgen, b, by rw [Function.update_self]; rfl⟩
      · have hstored := hnone b
        rw [hp] at hstored
        cases hstored

/-- A process begins a write. -/
lemma Stage.begin {x : BitVec 8} (h : Stage e g epoch gen P) (hb : P b = .before) :
    Stage e g epoch gen (Function.update P b (.begun x)) := by
  have hload : (P b).loaded = false := by rw [hb]; rfl
  have hupdate : ∀ c, (Function.update P b (.begun x) c).loaded = (P c).loaded := by
    intro c
    obtain rfl | rfl := eq_or_eq_not b c
    · rw [Function.update_self, hload]
      rfl
    · rw [update_not_self]
  have hother : ∀ c, (P c).loaded → Function.update P b (.begun x) c = P c := by
    intro c hc
    refine Function.update_of_ne ?_ _ _
    rintro rfl
    rw [hc] at hload
    cases hload
  cases h with
  | none hP hepoch hgen => exact .none (fun c => (hupdate c).trans (hP c)) hepoch hgen
  | one a ha hnone =>
    refine .one a ?_ ((hupdate !a).trans hnone)
    rw [hother a ha.loaded]
    exact ha
  | turn a ha hlast =>
    have hafter : (P a).loaded := by rw [ha]; rfl
    refine .turn a ?_ ?_
    · rw [hother a hafter, ha]
    · rw [hother _ hlast.loaded]
      exact hlast
  | overlap hP =>
    rw [(hP b).loaded] at hload
    cases hload

/-- Both processes have loaded the epoch and store the next generation. -/
def SameGens (g : BitVec 8) (P : Bool → Progress) : Prop :=
  ∀ b, (P b).loaded ∧ (P b).gen = some (g + 1)

/-- A process is past its odd epoch and stores the generation after that of the other. -/
def Ahead (g : BitVec 8) (P : Bool → Progress) : Prop :=
  ∃ b, (P b).marked ∧ (P b).gen = some (g + 1 + 1)

/-- A generation that both leave. -/
def Settled (g : BitVec 8) (P : Bool → Progress) (x : BitVec 8) : Prop :=
  (∀ b, (P b).loaded) ∧ (x = g + 1 + 1 ∨ x = g + 1 ∧ SameGens g P)

/-- Before any odd epoch is stored, memory is as it was. -/
lemma Stage.unmarked (h : Stage e g epoch gen P) (hP : ∀ b, (P b).marked = false) :
    epoch = e ∧ gen = g := by
  cases h with
  | none _ hepoch hgen => exact ⟨hepoch, hgen⟩
  | one a ha _ =>
    have hmarked := hP a
    cases hp : P a with
    | marking =>
      rw [hp] at ha
      exact ⟨ha.2.1, ha.2.2⟩
    | copying | finished =>
      rw [hp] at hmarked
      cases hmarked
    | before | begun =>
      rw [hp] at ha
      cases ha
  | turn a ha _ =>
    have hmarked := hP a
    rw [ha] at hmarked
    cases hmarked
  | overlap _ hepoch hgen =>
    have hepoch' : epoch = e := by
      obtain ⟨hepoch, -⟩ | ⟨-, c, hc⟩ | ⟨-, c, hc⟩ := hepoch
      · exact hepoch
      all_goals
        have hmarked := hP c
        revert hc hmarked
        cases P c <;> nofun
    obtain ⟨-, c, hc⟩ | ⟨hgen, -⟩ := hgen
    · have hmarked := hP c
      rw [marked_of_stored hc] at hmarked
      cases hmarked
    · exact ⟨hepoch', hgen⟩

/-- Once an odd epoch is stored, the first epoch does not come back. -/
lemma Stage.epoch_ne (h : Stage e g epoch gen P) (hb : (P b).marked) : epoch ≠ e := by
  cases h with
  | none hP =>
    have hload := loaded_of_marked hb
    rw [hP b] at hload
    cases hload
  | one a ha hother =>
    obtain rfl | rfl := eq_or_eq_not a b
    · cases hp : P b with
      | copying =>
        rw [hp] at ha
        obtain ⟨-, rfl, -⟩ := ha
        bv_omega
      | finished =>
        rw [hp] at ha
        obtain ⟨rfl, -⟩ := ha
        bv_omega
      | _ =>
        rw [hp] at hb
        cases hb
    · rw [not_marked hother] at hb
      cases hb
  | turn a _ hlast =>
    cases hp : P !a with
    | marking | copying =>
      rw [hp] at hlast
      obtain ⟨-, rfl, -⟩ := hlast
      bv_omega
    | finished =>
      rw [hp] at hlast
      obtain ⟨rfl, -⟩ := hlast
      bv_omega
    | _ =>
      rw [hp] at hlast
      cases hlast
  | overlap _ hepoch =>
    obtain ⟨-, hnone⟩ | ⟨rfl, -⟩ | ⟨rfl, -⟩ := hepoch
    · rw [hnone b] at hb
      cases hb
    · bv_omega
    · bv_omega

/-- A process that has not begun its write finds the first generation, or the next one of the other. -/
lemma Stage.gen_before (h : Stage e g epoch gen P) (hgens : Gens g P) (hb : P b = .before) :
    gen = g ∨ gen = g + 1 ∧ (P !b).stored := by
  have hload : (P b).loaded = false := by rw [hb]; rfl
  cases h with
  | none _ _ hgen => exact .inl hgen
  | one a ha _ =>
    obtain rfl | rfl := eq_or_eq_not a b
    · rw [ha.loaded] at hload
      cases hload
    · have hnext : ∀ y, (P a).gen = some y → y = g + 1 := fun y hy =>
        hgens.eq_next (not_stored (not_marked hload)) hy
      rw [Bool.not_not]
      cases hp : P a with
      | marking =>
        rw [hp] at ha
        exact .inl ha.2.2
      | copying y seq stored =>
        rw [hp] at ha hnext
        obtain ⟨-, -, rfl⟩ := ha
        cases stored with
        | true => exact .inr ⟨hnext y rfl, rfl⟩
        | false => exact .inl rfl
      | finished y =>
        rw [hp] at ha hnext
        obtain ⟨-, rfl⟩ := ha
        exact .inr ⟨hnext gen rfl, rfl⟩
      | _ =>
        rw [hp] at ha
        cases ha
  | turn a ha hlast =>
    obtain rfl | rfl := eq_or_eq_not a b
    · rw [ha] at hb
      cases hb
    · rw [hlast.loaded] at hload
      cases hload
  | overlap hP =>
    rw [(hP b).loaded] at hload
    cases hload

/-- A process that has not begun its write finds what the other has left. -/
lemma Stage.after_other (h : Stage e g epoch gen P) (hgens : Gens g P) (hb : P b = .before)
    (hother : (P !b).isFinished) : epoch = e + 1 + 1 ∧ gen = g + 1 := by
  have hload : (P b).loaded = false := by rw [hb]; rfl
  have hload' := loaded_of_marked (marked_of_stored (stored_of_finished hother))
  cases h with
  | none hP =>
    rw [hP] at hload'
    cases hload'
  | one a ha _ =>
    obtain rfl | rfl := eq_or_eq_not a b
    · rw [ha.loaded] at hload
      cases hload
    · rw [Bool.not_not] at hother
      obtain ⟨x, hx⟩ := isFinished_iff.1 hother
      rw [hx] at ha
      obtain ⟨rfl, rfl⟩ := ha
      have hnext : gen = g + 1 := hgens.eq_next (not_stored (not_marked hload)) (by rw [hx]; rfl)
      exact ⟨rfl, hnext⟩
  | turn a ha hlast =>
    obtain rfl | rfl := eq_or_eq_not a b
    · rw [ha] at hb
      cases hb
    · rw [hlast.loaded] at hload
      cases hload
  | overlap hP =>
    rw [(hP b).loaded] at hload
    cases hload

/-- The even epoch after the first is that of a finished write. -/
lemma Stage.exists_finished (h : Stage e g (e + 1 + 1) gen P) : ∃ a, (P a).isFinished := by
  cases h with
  | none _ hepoch =>
    exfalso
    bv_omega
  | one a ha _ =>
    refine ⟨a, ?_⟩
    cases hp : P a with
    | finished => rfl
    | marking | copying =>
      exfalso
      rw [hp] at ha
      obtain ⟨-, hepoch, -⟩ := ha
      bv_omega
    | _ =>
      rw [hp] at ha
      cases ha
  | turn a ha _ => exact ⟨a, by rw [ha]; rfl⟩
  | overlap _ hepoch =>
    obtain ⟨hepoch, -⟩ | ⟨hepoch, -⟩ | ⟨-, hfinished⟩ := hepoch
    · exfalso
      bv_omega
    · exfalso
      bv_omega
    · exact hfinished

/-- Savers that are over have the same generation. -/
lemma sameGens_of_over (hP : ∀ b, Over e g (P b)) : SameGens g P :=
  fun b => ⟨(hP b).loaded, (hP b).gen⟩

/-- After one write is finished, the second stores the next generation too or is ahead. -/
lemma sameGens_or_ahead {a : Bool} (hgens : Gens g P) (ha : P a = .finished (g + 1))
    (hb : (P !a).marked) : SameGens g P ∨ Ahead g P := by
  have hgen : ∃ x, (P !a).gen = some x := by
    revert hb
    cases P !a <;> simp [Progress.gen, Progress.marked]
  obtain ⟨x, hx⟩ := hgen
  obtain rfl | ⟨rfl, -⟩ := hgens _ x hx
  · refine .inl fun b => ?_
    obtain rfl | rfl := eq_or_eq_not a b
    · rw [ha]
      exact ⟨rfl, rfl⟩
    · exact ⟨loaded_of_marked hb, hx⟩
  · exact .inr ⟨!a, hb, hx⟩

/-- What a `Read` sees after a write is finished. -/
lemma Stage.of_finished {a : Bool} (h : Stage e g epoch gen P) (hgens : Gens g P)
    (ha : (P a).isFinished) :
    (gen = g + 1 ∨ Ahead g P) ∧ (epoch = e + 1 + 1 ∨ SameGens g P ∨ Ahead g P) := by
  have hload := loaded_of_marked (marked_of_stored (stored_of_finished ha))
  cases h with
  | none hP =>
    rw [hP a] at hload
    cases hload
  | one c hc hother =>
    obtain rfl | rfl := eq_or_eq_not c a
    · obtain ⟨x, hp⟩ := isFinished_iff.1 ha
      rw [hp] at hc
      obtain ⟨rfl, rfl⟩ := hc
      have hstored := not_stored (not_marked hother)
      have hnext : gen = g + 1 := hgens.eq_next hstored (by rw [hp]; rfl)
      exact ⟨.inl hnext, .inl rfl⟩
    · rw [hother] at hload
      cases hload
  | turn c hc hlast =>
    cases hp : P !c with
    | marking =>
      rw [hp] at hlast
      obtain ⟨-, rfl, rfl⟩ := hlast
      exact ⟨.inl rfl, .inl rfl⟩
    | copying x seq stored =>
      have hmarked : (P !c).marked := by rw [hp]; rfl
      obtain hsame | hahead := sameGens_or_ahead hgens hc hmarked
      · have hx := (hsame !c).2
        rw [hp] at hlast hx
        obtain rfl : x = g + 1 := Option.some.inj hx
        refine ⟨.inl ?_, .inr (.inl hsame)⟩
        rw [hlast.2.2, ite_self]
      · exact ⟨.inr hahead, .inr (.inr hahead)⟩
    | finished x =>
      have hmarked : (P !c).marked := by rw [hp]; rfl
      obtain hsame | hahead := sameGens_or_ahead hgens hc hmarked
      · have hx := (hsame !c).2
        rw [hp] at hlast hx
        obtain rfl : x = g + 1 := Option.some.inj hx
        exact ⟨.inl hlast.2, .inr (.inl hsame)⟩
      · exact ⟨.inr hahead, .inr (.inr hahead)⟩
    | _ =>
      rw [hp] at hlast
      cases hlast
  | overlap hP _ hgen =>
    refine ⟨.inl ?_, .inr (.inl (sameGens_of_over hP))⟩
    obtain ⟨hgen, -⟩ | ⟨-, hnone⟩ := hgen
    · exact hgen
    · have hstored := stored_of_finished ha
      rw [hnone a] at hstored
      cases hstored

/-- The next generation is not the one after it. -/
lemma next_ne_last {x : BitVec 8} (h : x = g + 1) (h' : some x = some (g + 1 + 1)) : False := by
  have hx := Option.some.inj h'
  bv_omega

/-- A process that is ahead has left the epoch of the first write behind. -/
lemma Stage.epoch_of_ahead (h : Stage e g epoch gen P) (hgens : Gens g P) (hahead : Ahead g P) :
    epoch ≠ e + 1 + 1 := by
  obtain ⟨b, hb, hx⟩ := hahead
  cases h with
  | none hP =>
    have hload := loaded_of_marked hb
    rw [hP b] at hload
    cases hload
  | one a ha hother =>
    obtain rfl | rfl := eq_or_eq_not a b
    · have hnext := hgens.eq_next (not_stored (not_marked hother)) hx
      exact (next_ne_last hnext rfl).elim
    · rw [not_marked hother] at hb
      cases hb
  | turn a ha hlast =>
    obtain rfl | rfl := eq_or_eq_not a b
    · rw [ha] at hx
      exact (next_ne_last rfl hx).elim
    · cases hp : P !a with
      | copying =>
        rw [hp] at hlast
        obtain ⟨-, rfl, -⟩ := hlast
        bv_omega
      | finished =>
        rw [hp] at hlast
        obtain ⟨rfl, -⟩ := hlast
        bv_omega
      | _ =>
        rw [hp] at hb
        cases hb
  | overlap hP =>
    rw [(hP b).gen] at hx
    exact (next_ne_last rfl hx).elim

/-- The last epoch is that of two finished writes. -/
lemma Stage.all_finished (h : Stage e g (e + 1 + 1 + 1 + 1) gen P) (b : Bool) : (P b).isFinished := by
  cases h with
  | none _ hepoch =>
    exfalso
    bv_omega
  | one a ha _ =>
    exfalso
    cases hp : P a with
    | finished =>
      rw [hp] at ha
      obtain ⟨hepoch, -⟩ := ha
      bv_omega
    | marking | copying =>
      rw [hp] at ha
      obtain ⟨-, hepoch, -⟩ := ha
      bv_omega
    | _ =>
      rw [hp] at ha
      cases ha
  | turn a ha hlast =>
    obtain rfl | rfl := eq_or_eq_not a b
    · rw [ha]
      rfl
    · cases hp : P !a with
      | finished => rfl
      | marking | copying =>
        exfalso
        rw [hp] at hlast
        obtain ⟨-, hepoch, -⟩ := hlast
        bv_omega
      | _ =>
        rw [hp] at hlast
        cases hlast
  | overlap _ hepoch =>
    exfalso
    obtain ⟨hepoch, -⟩ | ⟨hepoch, -⟩ | ⟨hepoch, -⟩ := hepoch
    all_goals bv_omega

/-- Two finished writes leave a settled generation. -/
lemma Stage.settled (h : Stage e g epoch gen P) (hgens : Gens g P) (hP : ∀ b, (P b).isFinished) :
    Settled g P gen := by
  have hload : ∀ b, (P b).loaded := fun b =>
    loaded_of_marked (marked_of_stored (stored_of_finished (hP b)))
  refine ⟨hload, ?_⟩
  cases h with
  | none hnone =>
    have hb := hload true
    rw [hnone true] at hb
    cases hb
  | one a _ hother =>
    have hb := hload !a
    rw [hother] at hb
    cases hb
  | turn a ha hlast =>
    obtain ⟨x, hp⟩ := isFinished_iff.1 (hP !a)
    have hmarked : (P !a).marked := by rw [hp]; rfl
    rw [hp] at hlast
    obtain ⟨-, rfl⟩ := hlast
    have hx : (P !a).gen = some gen := by rw [hp]; rfl
    obtain hsame | ⟨b, -, hb⟩ := sameGens_or_ahead hgens ha hmarked
    · have hnext := (hsame !a).2
      rw [hx] at hnext
      exact .inr ⟨Option.some.inj hnext, hsame⟩
    · obtain rfl | rfl := eq_or_eq_not a b
      · rw [ha] at hb
        exact (next_ne_last rfl hb).elim
      · rw [hx] at hb
        exact .inl (Option.some.inj hb)
  | overlap hover _ hgen =>
    obtain ⟨hgen, -⟩ | ⟨-, hnone⟩ := hgen
    · exact .inr ⟨hgen, sameGens_of_over hover⟩
    · have hstored := stored_of_finished (hP true)
      rw [hnone true] at hstored
      cases hstored

/-- The even epochs. -/
lemma Stage.even (h : Stage e g epoch gen P) (he : Seqlock.odd e = false)
    (heven : Seqlock.odd epoch = false) :
    epoch = e ∨ epoch = e + 1 + 1 ∨ epoch = e + 1 + 1 + 1 + 1 := by
  have hodd := odd_next he
  have hodd' := odd_next (odd_next_next he)
  cases h with
  | none _ hepoch => exact .inl hepoch
  | one a ha _ =>
    cases hp : P a with
    | marking =>
      rw [hp] at ha
      exact .inl ha.2.1
    | copying =>
      rw [hp] at ha
      rw [ha.2.1, hodd] at heven
      cases heven
    | finished =>
      rw [hp] at ha
      exact .inr (.inl ha.1)
    | _ =>
      rw [hp] at ha
      cases ha
  | turn a _ hlast =>
    cases hp : P !a with
    | marking =>
      rw [hp] at hlast
      exact .inr (.inl hlast.2.1)
    | copying =>
      rw [hp] at hlast
      rw [hlast.2.1, hodd'] at heven
      cases heven
    | finished =>
      rw [hp] at hlast
      exact .inr (.inr hlast.1)
    | _ =>
      rw [hp] at hlast
      cases hlast
  | overlap _ hepoch =>
    obtain ⟨hepoch, -⟩ | ⟨rfl, -⟩ | ⟨hepoch, -⟩ := hepoch
    · exact .inl hepoch
    · rw [hodd] at heven
      cases heven
    · exact .inr (.inl hepoch)

/-- While no copy is under way, the epoch is even. -/
lemma Stage.even_of_quiet (h : Stage e g epoch gen P) (he : Seqlock.odd e = false)
    (hP : ∀ b, (P b).isCopying = false) : Seqlock.odd epoch = false := by
  have hnext := odd_next_next he
  cases h with
  | none _ hepoch => rwa [hepoch]
  | one a ha _ =>
    have hquiet := hP a
    cases hp : P a with
    | marking =>
      rw [hp] at ha
      rwa [ha.2.1]
    | copying =>
      rw [hp] at hquiet
      cases hquiet
    | finished =>
      rw [hp] at ha
      rwa [ha.1]
    | _ =>
      rw [hp] at ha
      cases ha
  | turn a _ hlast =>
    have hquiet := hP !a
    cases hp : P !a with
    | marking =>
      rw [hp] at hlast
      rwa [hlast.2.1]
    | copying =>
      rw [hp] at hquiet
      cases hquiet
    | finished =>
      rw [hp] at hlast
      rw [hlast.1]
      exact odd_next_next hnext
    | _ =>
      rw [hp] at hlast
      cases hlast
  | overlap _ hepoch =>
    obtain ⟨hepoch, -⟩ | ⟨-, b, hb⟩ | ⟨hepoch, -⟩ := hepoch
    · rwa [hepoch]
    · rw [hP b] at hb
      cases hb
    · rwa [hepoch]

variable {P' : Bool → Progress}

/-- The generations stay the same. -/
lemma SameGens.mono (h : SameGens g P) (hgrows : ∀ b, Grows (P b) (P' b)) : SameGens g P' :=
  fun b => ⟨(hgrows b).loaded (h b).1, (hgrows b).gen _ (h b).2⟩

/-- Who is ahead stays so. -/
lemma Ahead.mono (h : Ahead g P) (hgrows : ∀ b, Grows (P b) (P' b)) : Ahead g P' := by
  obtain ⟨b, hb, hx⟩ := h
  exact ⟨b, (hgrows b).marked hb, (hgrows b).gen _ hx⟩

/-- What is settled stays so. -/
lemma Settled.mono {x : BitVec 8} (h : Settled g P x) (hgrows : ∀ b, Grows (P b) (P' b)) :
    Settled g P' x := by
  obtain ⟨hload, hx⟩ := h
  refine ⟨fun b => (hgrows b).loaded (hload b), ?_⟩
  obtain hx | ⟨hx, hsame⟩ := hx
  · exact .inl hx
  · exact .inr ⟨hx, hsame.mono hgrows⟩

end

end NextKey
