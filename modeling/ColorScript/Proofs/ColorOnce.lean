import ColorScript.Proofs.Marks
import ColorScript.Proofs.VerificationRuns
import ColorScript.Session.Requests

/-! The colour is set once. Once there is one, neither a run nor a sequence of requests changes it, and
it comes from an operation outside of branches and of redeem scripts. A coloured output that is spent
gives its own colour. -/
namespace ColorScript

/-- The visit at which a run takes on a colour. -/
structure Visit.Colors (ctx : Context) (visit : Visit) (color : ColorId) : Prop where
  executed : visit.operation? = some .setColor
  paints : ∃ item rest, Paints ctx visit.before item rest color

namespace Machine

variable {ctx : Context} {before after : State} {chunks : List Chunk} {done : Unit} {color : ColorId}

-- The step lemma: the colour stays, or there was none and the chunk gives one.
private theorem after_color (ctx : Context) (visit : Visit) :
    (visit.after ctx).color = visit.before.color ∨ visit.before.color = none ∧
      ∃ color, visit.Colors ctx color ∧ (visit.after ctx).color = some color := by
  cases after_marks ctx visit with
  | same _ color => exact .inl color
  | separator _ _ color => exact .inl color
  | color executed paints _ painted => exact .inr ⟨paints.fresh,_,⟨executed,_,_,paints⟩,painted⟩

-- The run lemma.
private theorem advanceAll_color (ctx : Context) (place : Nat) (chunks : List Chunk) (before : State) :
    (final (advanceAll ctx place chunks before)).color = before.color ∨
      before.color = none ∧ ∃ visit ∈ visits ctx place chunks before, ∃ color,
        visit.Colors ctx color ∧ (final (advanceAll ctx place chunks before)).color = some color := by
  induction chunks generalizing place before with
  | nil => exact .inl rfl
  | cons chunk rest ih =>
    have first := after_color ctx ⟨place,chunk,before⟩
    rw [Visit.after] at first
    rw [advanceAll]
    cases stepped : advance ctx place chunk before with
    | error error middle =>
      rw [stepped] at first
      rw [bind_of_failure stepped,visits,stepped]
      rcases first with same | ⟨fresh,color,colors,painted⟩
      · exact .inl same
      · exact .inr ⟨fresh,_,List.mem_cons_self,color,colors,painted⟩
    | ok done middle =>
      rw [stepped] at first
      rw [bind_of_success stepped,visits_cons stepped]
      rcases first with same | ⟨fresh,color,colors,painted⟩
      · rcases ih (place + 1) middle with stays | ⟨fresh,visit,member,found⟩
        · exact .inl (stays.trans same)
        · exact .inr ⟨same.symm.trans fresh,visit,List.mem_cons_of_mem _ member,found⟩
      · rcases ih (place + 1) middle with stays | ⟨none,_⟩
        · exact .inr ⟨fresh,_,List.mem_cons_self,color,colors,stays.trans painted⟩
        · cases painted.symm.trans none

end Machine

private theorem Run.final_color (run : Run) :
    run.final.color = run.start.color ∨ run.start.color = none ∧
      ∃ visit ∈ run.visits, ∃ color, visit.Colors run.ctx color ∧ run.final.color = some color := by
  rw [final,outcome,Machine.run_final,visits]
  split
  · exact Machine.advanceAll_color run.ctx 0 run.ctx.script run.start
  · exact .inl rfl

theorem Paints.item {ctx : Context} {before : State} {item : Bytes} {rest : Stack} {color : ColorId}
    (paints : Paints ctx before item rest color) :
    item = color.toBytes ∧ item.length = 33 ∧
      (item.head? = some 0xc1 ∨ item.head? = some 0xc2 ∨ item.head? = some 0xc3) := by
  have bytes := ColorId.toBytes_of_ofBytes paints.read
  refine ⟨bytes.symm,?_,?_⟩
  · rw [← bytes]
    exact color.length_toBytes
  · rw [← bytes,ColorId.toBytes,List.head?_cons]
    cases color.type <;> decide

private theorem Script.colored_cases {script : Script}
    (shape : script.isColoredP2PKH = true ∨ script.isColoredP2SH = true) :
    ∃ color rest, script = withColor color rest := by
  obtain ⟨color,rest,_,same⟩ := isColored_iff.mp (Bool.or_eq_true_iff.mpr shape)
  exact ⟨color,rest,same⟩

namespace Session

variable {rules : Rules} {unlocking locking : Script} {before after : Session} {color : ColorId}

/-- An evaluation that takes on a colour, and the chunk that it does so at. -/
structure Colors (rules : Rules) (script : Script) (redeem : Bool) (before : Session)
    (color : ColorId) : Prop where
  fresh : before.color = none
  chunk : ∃ visit ∈ (Run.mk { rules with script, redeem } before.start).visits,
    visit.Colors { rules with script, redeem } color

theorem evaluate_color (rules : Rules) (script : Script) (redeem : Bool) (before : Session) :
    (final (evaluate rules script redeem before)).color = before.color ∨
      ∃ color, Colors rules script redeem before color ∧
        (final (evaluate rules script redeem before)).color = some color := by
  rw [evaluate_final]
  rcases (Run.mk { rules with script, redeem } before.start).final_color with
    same | ⟨fresh,visit,member,color,colors,painted⟩
  · exact .inl same
  · exact .inr ⟨color,⟨fresh,visit,member,colors⟩,painted⟩

private theorem evaluate_color_redeem (rules : Rules) (script : Script) (before : Session) :
    (final (evaluate rules script true before)).color = before.color := by
  rcases evaluate_color rules script true before with same | ⟨_,⟨_,visit,_,_,item,rest,paints⟩,_⟩
  · exact same
  · cases paints.plain

-- The step lemma for requests.
private theorem perform_color (request : Request) (before : Session) :
    (final (request.perform before)).color = before.color ∨
      ∃ rules script redeem color, request = .evaluate rules script redeem ∧
        Colors rules script redeem before color ∧
        (final (request.perform before)).color = some color := by
  cases request with
  | evaluate rules script redeem =>
    exact (evaluate_color rules script redeem before).imp id fun ⟨color,found⟩ =>
      ⟨rules,script,redeem,color,rfl,found⟩
  | setStack stack => exact .inl rfl

-- The run lemma for requests.
private theorem performAll_color (requests : List Request) (before : Session) :
    (before.performAll requests).color = before.color ∨ before.color = none ∧
      ∃ earlier rules script redeem later color,
        requests = earlier ++ .evaluate rules script redeem :: later ∧
        Colors rules script redeem (before.performAll earlier) color ∧
        (before.performAll requests).color = some color := by
  induction requests generalizing before with
  | nil => exact .inl rfl
  | cons request others ih =>
    have split : before.performAll (request :: others) =
        (final (request.perform before)).performAll others := rfl
    rw [split]
    rcases perform_color request before with same | ⟨rules,script,redeem,color,rfl,colors,painted⟩
    · rcases ih (final (request.perform before)) with
        stays | ⟨fresh,earlier,rules,script,redeem,later,color,rfl,colors,painted⟩
      · exact .inl (stays.trans same)
      · exact .inr ⟨same.symm.trans fresh,request :: earlier,rules,script,redeem,later,color,rfl,colors,
          painted⟩
    · rcases ih (final (Request.perform (.evaluate rules script redeem) before)) with stays | ⟨none,_⟩
      · exact .inr ⟨colors.fresh,[],rules,script,redeem,others,color,rfl,colors,stays.trans painted⟩
      · cases painted.symm.trans none

private theorem redeem_color {unlocked : Stack}
    (ok : redeem rules unlocking locking unlocked before = .ok () after) :
    after.color = before.color ∧
      (rules.flags.has .p2sh = true → paysToScript locking = true → unlocking.isPushOnly = true) := by
  by_cases chosen : rules.flags.has .p2sh = true ∧ paysToScript locking = true
  · obtain ⟨pushes,top,rest,_,ran,_⟩ := (redeem_success_iff chosen.1 chosen.2).mp ok
    have kept := evaluate_color_redeem rules (Script.parse top) { before with
      stack := rest, journal := before.journal ++ [.redeeming (Script.parse top)] }
    rw [ran] at kept
    exact ⟨kept,fun _ _ => pushes⟩
  · have skipped : ¬ (rules.flags.has .p2sh && paysToScript locking) = true :=
      fun both => chosen (Bool.and_eq_true_iff.mp both)
    rw [redeem,if_neg skipped] at ok
    cases ok
    exact ⟨rfl,fun known pays => absurd ⟨known,pays⟩ chosen⟩

theorem color_of_verify (ok : verify rules unlocking locking before = .ok () after) :
    (rules.flags.has .sigPushOnly = true → unlocking.isPushOnly = true) ∧
    (rules.flags.has .p2sh = true → paysToScript locking = true → unlocking.isPushOnly = true) ∧
    ∃ unlocked locked, evaluate rules unlocking false { calls := before.calls, journal := before.journal } =
        .ok () unlocked ∧
      evaluate rules locking false unlocked = .ok () locked ∧ after.color = locked.color := by
  obtain ⟨last,satisfied,rfl⟩ := verify_success_iff.mp ok
  rw [satisfy_eq] at satisfied
  obtain ⟨_,locked,opened,satisfied⟩ := bind_success _ _ _ _ _ satisfied
  obtain ⟨_,redeemed,accepted,tidied⟩ := bind_success _ _ _ _ _ satisfied
  obtain ⟨rfl,_⟩ := tidy_success_iff.mp tidied
  obtain ⟨pushes,unlocked,ran,rfl,locks,_⟩ := unlock_success_iff.mp opened
  obtain ⟨kept,pushes'⟩ := redeem_color accepted
  exact ⟨pushes,pushes',unlocked,locked,ran,locks,kept⟩

private theorem evaluate_withColor {script : Script}
    (ok : evaluate rules (Script.withColor color script) false before = .ok () after) :
    after.color = some color := by
  obtain ⟨state,ran,rfl⟩ := evaluate_success_iff.mp ok
  obtain ⟨_,ran,_⟩ := Machine.run_success_iff.mp ran
  obtain ⟨_,_,_,_,ran⟩ := (Machine.advanceAll_withColor_success_iff rfl).mp ran
  have kept := Machine.advanceAll_color { rules with script := Script.withColor color script, redeem := false }
    2 script { before.start with color := some color, opCount := before.start.opCount + 1 }
  rcases kept with same | ⟨none,_⟩
  · exact (congrArg (fun result => (final result).color) ran).symm.trans same
  · cases none

/-- An output with a colour gives its own when it is spent. Between verifications, a colour is never
changed, and it can only come from the top item of a run, outside of branches and of redeem scripts. -/
theorem color_once :
    (∀ rules unlocking locking before after,
      locking.isColoredP2PKH = true ∨ locking.isColoredP2SH = true →
      verify rules unlocking locking before = .ok () after →
        ∃ color, locking.color? = some color ∧ after.color = some color) ∧
    (∀ (before : Session) color, before.color = some color →
      ∀ requests, (before.performAll requests).color = some color) ∧
    ∀ (before : Session) requests color, before.color = none →
      (before.performAll requests).color = some color →
        ∃ earlier rules script later, requests = earlier ++ .evaluate rules script false :: later ∧
          ∃ visit ∈ (Run.mk { rules with script, redeem := false } (before.performAll earlier).start).visits,
            visit.operation? = some .setColor ∧ visit.before.flow = [] ∧ ∃ item rest,
              visit.before.stack = item :: rest ∧ ColorId.ofBytes item = .ok color ∧
              item.length = 33 ∧
              (item.head? = some 0xc1 ∨ item.head? = some 0xc2 ∨ item.head? = some 0xc3) := by
  refine ⟨?_,?_,?_⟩
  · intro rules unlocking locking before after shape ok
    obtain ⟨color,rest,rfl⟩ := Script.colored_cases shape
    obtain ⟨_,_,unlocked,locked,_,locks,same⟩ := color_of_verify ok
    exact ⟨color,Script.color?_withColor color rest,same.trans (evaluate_withColor locks)⟩
  · intro before color colored requests
    rcases performAll_color requests before with same | ⟨fresh,_⟩
    · exact same.trans colored
    · cases colored.symm.trans fresh
  · intro before requests color fresh colored
    rcases performAll_color requests before with
      same | ⟨_,earlier,rules,script,redeem,later,color',rfl,colors,painted⟩
    · cases (same.trans fresh).symm.trans colored
    · obtain rfl := Option.some.inj (painted.symm.trans colored)
      obtain ⟨_,visit,member,executed,item,rest,paints⟩ := colors
      obtain rfl : redeem = false := paints.plain
      obtain ⟨_,length,first⟩ := paints.item
      exact ⟨earlier,rules,script,later,rfl,visit,member,executed,paints.outside,item,rest,paints.top,
        paints.read,length,first⟩

/-- A signature and a key of one byte each, for an output with a colour, without any rules. -/
theorem color_once_keyDigest :
    ∃ after, verify ⟨Flags.empty,fun _ => true⟩ [.push [1] [9],.push [1] [2]]
      (Script.withColor (ColorId.reissuable []) (Script.p2pkh (Digest.hash160 [2]))) {} =
        .ok () after ∧ after.color = some (ColorId.reissuable []) := by
  have accepts : succeeds (fun _ => true) (verify ⟨Flags.empty,fun _ => true⟩
      [.push [1] [9],.push [1] [2]]
      (Script.withColor (ColorId.reissuable []) (Script.p2pkh (Digest.hash160 [2]))) {}) = true := by
    decide +kernel
  have shape := Script.isColoredP2PKH_iff.mpr ⟨ColorId.reissuable [],Digest.hash160 [2],rfl⟩
  obtain ⟨_,after,ok,_⟩ := exists_of_succeeds accepts
  obtain ⟨color,own,given⟩ := color_once.1 _ _ _ _ _ (.inl shape) ok
  rw [Script.color?_withColor,Option.some.injEq] at own
  exact ⟨after,ok,own ▸ given⟩

end Session

end ColorScript
