-- When a cut of the log is noticed. The tailer compares the length of the log
-- with the bytes that it kept. The bytes of a line that was lost are not among
-- them, so they are missing from the count until the file is opened anew.
import Metronome.Proofs.Pause.Pursuit

namespace Metronome

namespace Pause

open Text (toBytes)

/-- How far into its file the reading is: where it began, and all that was served since. -/
def Epoch.consumed (e : Epoch) : Nat := e.origin + (Stretch.servedOf e.stretches).length

/-- How many of these bytes were lost. -/
def Epoch.lost (e : Epoch) : Nat := (Stretch.lostOf e.stretches).length

theorem Epoch.lost_eq_zero_iff {e : Epoch} : e.lost = 0 ↔ ∀ s ∈ e.stretches, s.lost = [] := by
  unfold Epoch.lost Stretch.lostOf
  rw [List.length_eq_zero_iff, List.flatten_eq_nil_iff, List.forall_mem_map]

theorem Epoch.Follows.position_add_lost {e : Epoch} {t : Tailer} (h : e.Follows t) :
    t.position + e.lost = e.consumed := by
  rw [h.position, Epoch.consumed, Epoch.lost, Stretch.length_servedOf, Nat.add_assoc]

namespace Pursuit

/-- Whatever happened to a log, the position is what was consumed of the open file but for the
lines that were lost, and a read begins anew if and only if the log is shorter than that. -/
theorem a_cut_is_noticed_below_what_was_kept (content : Text.Bytes) (fromStart : Bool)
    (hs : List Happening) (told : List Duration)
    (htold : ((opening content fromStart).after hs).epoch.told = .ok told) :
    let p := (opening content fromStart).after hs
    p.tailer.served = p.epoch.consumed ∧
    p.tailer.position + p.epoch.lost = p.epoch.consumed ∧
    (p.tailer.position = p.epoch.consumed ↔ ∀ s ∈ p.epoch.stretches, s.lost = []) ∧
    ∀ (d : Disk) (file : Nat), d.atPath = some file →
      ((d.content file).length + p.epoch.lost < p.epoch.consumed →
        p.tailer.read d = (Tailer.fromStart file).read d) ∧
      (p.epoch.consumed ≤ (d.content file).length + p.epoch.lost →
        p.tailer.read d =
          let now := d.content p.tailer.file
          p.tailer.readLines now (Text.lines (p.tailer.ahead now)) []) := by
  have hfollows := (after_kept (opening_kept content fromStart) hs).follows told htold
  have hposition := hfollows.position_add_lost
  refine ⟨hfollows.served, hposition, ?_, ?_⟩
  · rw [← Epoch.lost_eq_zero_iff]
    omega
  · intro d file hpath
    refine ⟨?_, ?_⟩
    · intro hcut
      have hlt :
          (d.content file).length < ((opening content fromStart).after hs).tailer.position := by
        omega
      rw [Tailer.read_eq hpath, Tailer.read_eq hpath,
        Tailer.reopen_of_lt hlt, Tailer.reopen_of_le (Nat.zero_le _)]
    · intro hgrown
      have hle :
          ((opening content fromStart).after hs).tailer.position ≤ (d.content file).length := by
        omega
      rw [Tailer.read_eq hpath]
      dsimp only
      rw [Tailer.reopen_of_le hle]

/-- A log of which twelve bytes were kept and three were lost: a cut to eleven bytes is noticed. -/
theorem a_cut_below_twelve_kept_bytes_is_noticed :
    let log := toBytes "GC Pause 1m\n"
    let p := (opening log true).after [.read, .append [195, 40, 10], .read]
    p.epoch.told = .ok [] ∧ p.tailer.position = 12 ∧ p.epoch.consumed = 15 ∧
    (p.after [.resize 11]).tailer.read (p.after [.resize 11]).disk =
      (Tailer.fromStart 0).read (p.after [.resize 11]).disk := by
  have htold : ((opening (toBytes "GC Pause 1m\n") true).after
      [.read, .append [195, 40, 10], .read]).epoch.told = .ok [] := by decide +kernel
  have h := a_cut_is_noticed_below_what_was_kept (toBytes "GC Pause 1m\n") true
    [.read, .append [195, 40, 10], .read] [] htold
  refine ⟨htold, by decide +kernel, by decide +kernel, ?_⟩
  exact (h.2.2.2 _ 0 (by decide +kernel)).1 (by decide +kernel)

/-- A line of two bytes that is no text is lost, and then the log is cut in front of it. The cut
goes unnoticed, and the pause that the log still tells of is never heard of. -/
theorem a_cut_before_a_lost_line_goes_unnoticed :
    let p := (opening (toBytes "GC Pause 5ms\n" ++ [255, 10]) true).after [.read]
    let q := p.after [.resize 13]
    p.tailer.served = 15 ∧ p.tailer.position ≠ 15 ∧
    (q.disk.content 0).length < 15 ∧
    q.tailer.read q.disk ≠ (Tailer.fromStart 0).read q.disk ∧
    (q.tailer.read q.disk).2 = .ok [] ∧
    ((Tailer.fromStart 0).read q.disk).2 = .ok [⟨5000000⟩] := by
  decide +kernel

end Pursuit

end Pause

end Metronome
