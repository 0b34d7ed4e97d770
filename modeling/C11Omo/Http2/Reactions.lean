import C11Omo.Http2.HeaderBlocks
import C11Omo.Http2.Lifecycle

set_option autoImplicit false

/-! # The reaction to a header block

What the server does when a header block is complete depends on the block in one way only: on what
the grammar says about it (`header_block_decides`). A block of representations with a path is served,
one without a path or one that cannot be read ends the connection, and one that is too long for the
buffers is refused, which the connection survives.
-/

namespace C11Omo.Http2

open C11Omo.Lib

/-- What a block decides: the return code of the step that completes it, and the frames that this
step queues. -/
inductive BlockDecides (streamId : Nat) (block : List UInt8) : ErrorCode → List Frame → Prop
  | served {reps : List (Option WireField)} {path : List UInt8}
      (hitems : pathReading.Items block reps) (hlast : lastPath (fieldsOf reps) = some path)
      (hne : path ≠ []) (fs : List Frame) :
      BlockDecides streamId block .ok (responseHeaders streamId (path.length + 1) :: fs)
  | pathless {reps : List (Option WireField)} (hitems : pathReading.Items block reps)
      (hnil : (lastPath (fieldsOf reps)).getD [] = []) (fs : List Frame) :
      BlockDecides streamId block .protocolError fs
  | refused (hstops : pathReading.Stops [] block) :
      BlockDecides streamId block .ok [rstStreamFrame streamId .refusedStream]
  | garbled (hitems : ∀ reps, ¬ pathReading.Items block reps)
      (hstops : ¬ pathReading.Stops [] block) (fs : List Frame) :
      BlockDecides streamId block .compressionError fs

namespace Connection

variable {c : Connection} {f : Frame} {flags : UInt8} {block : List UInt8}

theorem handleFrame_decides (hc : Inv c) (hadmits : c.Admits f)
    (hblock : c.blockOf f = some (flags, block)) (hodd : f.streamId % 2 = 1)
    (hlast : c.lastStreamId < f.streamId) {pos : Fin connMaxStreams} (hfree : c.freeSlot = some pos)
    (hinternal : (c.handleFrame f).1 ≠ .internalError) :
    BlockDecides f.streamId block (c.handleFrame f).1 (c.frameStep f).queued := by
  have hcap : headerValueCap ≤ streamPathCap := by decide
  -- a path that cannot be used, with the code that says why
  have hunserved : ∀ {ret : ErrorCode}, (extractPath block streamPathCap).1 = ret → ret ≠ .ok →
      (isStreamError ret = true ∧ (c.handleFrame f).1 = .ok
        ∧ (c.frameStep f).queued = [rstStreamFrame f.streamId ret])
      ∨ (isStreamError ret = false ∧ (c.handleFrame f).1 = ret) := by
    intro ret hext hret
    rcases handleFrame_unserved hc hadmits hblock hodd hlast hfree
      (Prod.ext hext rfl : extractPath block streamPathCap = (ret, _)) hret with
      ⟨herr, ⟨hok, hqueued, -⟩ | hfull⟩ | hcode
    · exact .inl ⟨herr, hok, hqueued⟩
    · exact absurd hfull hinternal
    · exact .inr hcode
  rcases extractPath_ends hcap block with ⟨reps, hitems⟩ | hstops | hfail
  · have hread := extractPath_items hcap hitems
    by_cases hnil : (lastPath (fieldsOf reps)).getD [] = []
    · rw [if_pos hnil] at hread
      rcases hunserved (congrArg Prod.fst hread) (by decide) with ⟨herr, -⟩ | ⟨-, hcode⟩
      · cases herr
      · rw [hcode]
        exact .pathless hitems hnil _
    · rw [if_neg hnil] at hread
      rcases handleFrame_served hc hadmits hblock hodd hlast hfree hread with
        ⟨hok, bytes, fs, hqueued, -⟩ | hfull
      · rw [hok, hqueued]
        refine .served hitems ?_ hnil fs
        rcases hpath : lastPath (fieldsOf reps) with _ | path
        · exact absurd (by rw [hpath]; rfl) hnil
        · rfl
      · exact absurd hfull hinternal
  · rcases hunserved (extractPath_stops hcap hstops) (by decide) with ⟨-, hok, hqueued⟩ | ⟨herr, -⟩
    · rw [hok, hqueued]
      exact .refused hstops
    · cases herr
  · rcases hunserved hfail (by decide) with ⟨herr, -⟩ | ⟨-, hcode⟩
    · cases herr
    · rw [hcode]
      refine .garbled (fun reps hitems => ?_) (fun hstops => ?_) _
      · rw [extractPath_items hcap hitems] at hfail
        split_ifs at hfail
      · rw [extractPath_stops hcap hstops] at hfail
        cases hfail

end Connection

/-- **A header block decides the reaction.** In every run, also after errors, a step that completes a
header block on a new stream, for which there is a slot, does what the block says, unless the output
is full; and without a slot the stream is refused. -/
theorem header_block_decides (ops : List Op) : ∀ st ∈ (exec ops).steps, ∀ flags block,
    st.before.Admits st.frame → st.before.blockOf st.frame = some (flags, block) →
    st.frame.streamId % 2 = 1 → st.before.lastStreamId < st.frame.streamId →
    st.code ≠ .internalError →
    (st.before.freeSlot = none ∧ st.code = .ok
        ∧ st.queued = [rstStreamFrame st.frame.streamId .refusedStream])
      ∨ ((∃ pos, st.before.freeSlot = some pos)
        ∧ BlockDecides st.frame.streamId block st.code st.queued) := by
  apply exec_steps
  intro c f hc flags block hadmits hblock hodd hlast hinternal
  rcases hfree : c.freeSlot with _ | pos
  · rcases Connection.handleFrame_slotless hc hadmits hblock hodd hlast hfree with
      ⟨hok, hqueued, -⟩ | hfull
    · exact .inl ⟨hfree, hok, hqueued⟩
    · exact absurd hfull hinternal
  · exact .inr ⟨⟨pos, hfree⟩,
      Connection.handleFrame_decides hc hadmits hblock hodd hlast hfree hinternal⟩

set_option maxRecDepth 20000 in
/-- The request of a client that gives no credit. -/
theorem header_block_decides_blocked :
    ∃ st ∈ (exec blockedRequest).steps, BlockDecides 1 [0x84] st.code st.queued := by
  have hstep : ∃ st ∈ (exec blockedRequest).steps, st.frame.streamId = 1
      ∧ st.before.Admits st.frame ∧ st.before.blockOf st.frame = some (5, [0x84])
      ∧ st.before.lastStreamId = 0 ∧ st.code = .ok ∧ st.before.freeSlot = some 0 := by
    decide +kernel
  obtain ⟨st, hst, hid, hadmits, hblock, hlast, hcode, hfree⟩ := hstep
  refine ⟨st, hst, ?_⟩
  rcases header_block_decides blockedRequest st hst 5 [0x84] hadmits hblock (by rw [hid])
    (by rw [hid, hlast]; decide) (by rw [hcode]; decide) with ⟨hnone, -⟩ | ⟨-, h⟩
  · rw [hfree] at hnone
    cases hnone
  · rwa [hid] at h

end C11Omo.Http2
