import PaintBench.Proofs.Json.Finite
import PaintBench.Proofs.Trace.Durations
import PaintBench.Proofs.Trace.PhaseProtocol
import PaintBench.Trace.Record
import PaintBench.Trace.Startup

/-!
# Samples are numbers

The log of a browser and the report of an audit hold finite numbers only. What is measured from
them is computed with rounding, and can become infinite on the way, but it is always a number.
-/

namespace PaintBench.Trace

open Json (HasFiniteNumbers)

/-! ## Events of a log -/

/-- An event has finite times, and the heap it reports is a number. -/
structure Measurable (e : Event Float) : Prop where
  times : TimesFinite e
  heap : ∀ x ∈ e.heap?, x ≤ x

/-- Megabytes of finitely many bytes are a number. -/
theorem megabytes_le_self {bytes : Float} (h : bytes.isFinite = true) :
    megabytes bytes ≤ megabytes bytes := by
  have hkilo : ∃ s m e hm, Binary64.unpacked 1024 = .finite s m e hm := ⟨_, _, _, _, rfl⟩
  exact Binary64.div_le_self (Binary64.div_le_self (Binary64.le_self_of_isFinite h) hkilo) hkilo

theorem TraceRecord.measurable_of_event? {t : TraceRecord} {ts : Float} {e : Event Float}
    (hts : ts.isFinite = true) (hdur : t.dur.isFinite = true) (hargs : t.args.HasFiniteNumbers)
    (h : t.event? ts = some e) : Measurable e := by
  unfold TraceRecord.event? at h
  split at h
  · split at h <;> cases h
    exact ⟨⟨hts, hdur⟩, nofun⟩
  · obtain ⟨message, -, hphase⟩ := Option.bind_eq_some_iff.mp h
    obtain ⟨phase, -, rfl⟩ := Option.map_eq_some_iff.mp hphase
    exact ⟨hts, nofun⟩
  · cases h
    exact ⟨hts, nofun⟩
  · cases h
    exact ⟨⟨hts, hdur⟩, nofun⟩
  · obtain ⟨bytes, hbytes, rfl⟩ := Option.map_eq_some_iff.mp h
    obtain ⟨reported, hreported, hfloat⟩ := Option.bind_eq_some_iff.mp hbytes
    refine ⟨hts, ?_⟩
    rintro _ ⟨⟩
    exact megabytes_le_self ((hargs.get? hreported).isFinite_of_float? hfloat)
  · cases h

theorem Message.measurable_of_event? {m : Message} {e : Event Float}
    (hparams : m.params.HasFiniteNumbers) (h : m.event? = some e) : Measurable e := by
  rw [Message.event?] at h
  split at h
  · cases h
  · obtain ⟨t, ht, h⟩ := Option.bind_eq_some_iff.mp h
    obtain ⟨ts, hts, hevent⟩ := Option.bind_eq_some_iff.mp h
    simp only [TraceRecord.decode, Option.bind_eq_bind, Option.bind_eq_some_iff] at ht
    obtain ⟨r, hr, name, -, ts', hts', dur, hdur, args, hargs, heq⟩ := ht
    have hfinite := Json.Record.hasFiniteNumbers_of_of? hparams hr
    cases heq
    obtain rfl : ts' = some ts := hts
    obtain ⟨jts, hjts, hdecoded⟩ := Json.Record.exists_of_optional hfinite hts'
    refine TraceRecord.measurable_of_event? (hjts.isFinite_of_float hdecoded) ?_ ?_ hevent
    · obtain rfl | ⟨jdur, hjdur, hdecoded⟩ := Json.Record.exists_of_withDefault hfinite hdur
      · exact (by decide : (0 : Float).isFinite = true)
      · exact hjdur.isFinite_of_float hdecoded
    · obtain rfl | ⟨jargs, hjargs, hdecoded⟩ := Json.Record.exists_of_withDefault hfinite hargs
      · exact .null
      · cases hdecoded
        exact hjargs

theorem Message.hasFiniteNumbers_of_decode {j : Json} {m : Message} (h : j.HasFiniteNumbers)
    (hm : Message.decode j = some m) : m.params.HasFiniteNumbers := by
  simp only [Message.decode, Option.bind_eq_bind, Option.bind_eq_some_iff] at hm
  obtain ⟨r, hr, method, -, params, hparams, heq⟩ := hm
  cases heq
  obtain rfl | ⟨jparams, hjparams, hdecoded⟩ :=
    Json.Record.exists_of_withDefault (Json.Record.hasFiniteNumbers_of_of? h hr) hparams
  · exact HasFiniteNumbers.null.lastWins
  · cases hdecoded
    exact hjparams.lastWins

/-- Events that stand in a log can be measured. -/
theorem measurable_of_classify {text : String} {e : Event Float} (h : classify text = some e) :
    Measurable e := by
  obtain ⟨j, hj, h⟩ := Option.bind_eq_some_iff.mp h
  have hfinite := Json.hasFiniteNumbers_of_parse? hj
  rw [Json.Decode.entire] at h
  split at h
  · rw [ofJson?] at h
    split at h
    · next m hm =>
      simp only [Message.decodeWrapped, Option.bind_eq_bind, Option.bind_eq_some_iff] at hm
      obtain ⟨r, hr, hmessage⟩ := hm
      obtain ⟨inner, hinner, hdecoded⟩ := Json.Record.exists_of_required
        (Json.Record.hasFiniteNumbers_of_ofObject? hfinite hr) hmessage
      exact Message.measurable_of_event? (Message.hasFiniteNumbers_of_decode hinner hdecoded) h
    · obtain ⟨m, hm, h⟩ := Option.bind_eq_some_iff.mp h
      exact Message.measurable_of_event? (Message.hasFiniteNumbers_of_decode hfinite hm) h
  · cases h

/-! ## Samples -/

theorem ts_isFinite {e : Event Float} (h : TimesFinite e) : e.ts.isFinite = true := by
  cases e with
  | click ts dur | paint ts dur => exact h.1
  | gc ts heap => exact h
  | navigationStart ts => exact h
  | marker phase ts => exact h

/-- What a window of finite times measures is a number. -/
theorem Measures.duration_le_self {window : List (Event Float)} {duration span : Float}
    (hfinite : ∀ e ∈ window, TimesFinite e) (h : Measures window duration span) :
    duration ≤ duration := by
  obtain ⟨first, click, lastPaint, finish, -, hclick, ⟨hlast, -⟩, -, rfl, -⟩ := h
  obtain ⟨paint, hpaint, rfl⟩ := List.mem_map.mp hlast
  have hthousand : (Quantity.ofNat 1000 : Float) = 1000 := by decide +kernel
  rw [milliseconds, hthousand]
  have hend := finish_le_self (hfinite paint ((paintsAfterClick_sublist window).subset hpaint))
  have hstart := ts_isFinite (hfinite click (List.mem_of_find?_eq_some hclick))
  exact Binary64.div_le_self (Binary64.sub_le_self hend hstart) ⟨_, _, _, _, rfl⟩

/-- Durations are numbers. -/
theorem durations_le_self {events : List (Event Float)} (hfinite : ∀ e ∈ events, TimesFinite e)
    {expected : Nat} {limits : Nat × Nat} {samples : CpuSamples Float}
    (h : cpuDurations events expected limits = .ok samples) :
    ∀ x ∈ samples.durations, x ≤ x := by
  rcases cpuDurations_cases (window_ends_le_self hfinite) expected limits with
    ⟨samples', heq, -, -, hmeasured, -⟩ | ⟨error, heq, -⟩
  · rw [heq] at h
    cases h
    intro x hx
    obtain ⟨place, rfl⟩ := List.mem_iff_get.mp hx
    obtain ⟨hlength, hevery⟩ := List.forall₂_iff_get.mp hmeasured
    obtain ⟨span, hmeasures⟩ := hevery place (by omega) place.isLt
    exact hmeasures.duration_le_self fun e he =>
      hfinite e ((sublist_of_mem_runWindows (List.get_mem _ _)).subset he)
  · rw [heq] at h
    cases h

/-- Heaps are numbers. -/
theorem heaps_le_self {events : List (Event Float)} (hmeasurable : ∀ e ∈ events, Measurable e)
    {heaps : List Float} (h : memorySamples events = .ok heaps) : ∀ x ∈ heaps, x ≤ x := by
  intro x hx
  have hsome : some x ∈ (runWindows events).map
      fun window => (window.filterMap Event.heap?).getLast? := by
    rw [map_window_of_lastHeaps h]
    exact List.mem_map_of_mem hx
  obtain ⟨window, hwindow, hlast⟩ := List.mem_map.mp hsome
  obtain ⟨e, he, hheap⟩ := List.mem_filterMap.mp (List.mem_of_getLast? hlast)
  exact (hmeasurable e ((sublist_of_mem_runWindows hwindow).subset he)).heap x hheap

end PaintBench.Trace

namespace PaintBench.StartupMetrics

theorem isFinite_of_auditValue {report : Json} (h : report.HasFiniteNumbers) {id : String}
    {x : Float} (hx : auditValue report id = some x) : x.isFinite = true := by
  obtain ⟨audits, haudits, hx⟩ := Option.bind_eq_some_iff.mp hx
  obtain ⟨value, hvalue, hfloat⟩ := Option.bind_eq_some_iff.mp hx
  have hfinite : audits.HasFiniteNumbers := by
    rcases Option.or_eq_some_iff.mp haudits with htop | ⟨-, hbelow⟩
    · exact h.get? htop
    · exact h.at? hbelow
  exact (hfinite.at? hvalue).isFinite_of_float? hfloat

/-- The metrics of a report are numbers. -/
theorem get_ofReport_le_self {report : Json} (h : report.HasFiniteNumbers) {metric : StartupMetric}
    {x : Float} (hx : (ofReport report).get metric = some x) : x ≤ x := by
  cases metric with
  | interactive => exact Binary64.le_self_of_isFinite (isFinite_of_auditValue h hx)
  | mainThreadWorkCost => exact Binary64.le_self_of_isFinite (isFinite_of_auditValue h hx)
  | bootupTime =>
    obtain ⟨reported, hreported, rfl⟩ := Option.map_eq_some_iff.mp hx
    have hnumber := Binary64.le_self_of_isFinite (isFinite_of_auditValue h hreported)
    have hleast : minBootupTime ≤ minBootupTime := by decide
    rcases (Quantity.max_cases hnumber hleast).1 with hmax | hmax <;> rw [hmax]
    · exact hnumber
    · exact hleast
  | totalKilobyteWeight =>
    obtain ⟨bytes, hbytes, rfl⟩ := Option.map_eq_some_iff.mp hx
    exact Binary64.div_le_self (Binary64.le_self_of_isFinite (isFinite_of_auditValue h hbytes))
      ⟨_, _, _, _, rfl⟩

end PaintBench.StartupMetrics
