/-
# Rows that a database stores

What an exchange that creates or edits a row comes to with a database that reads
statements by place: the row that comes back is the row that is kept, and it is built
from the contents that were written.  What is left to show for a kind of row is that
its columns, filled in by these contents, decode to the row that is meant.
-/

import VariantCatalog.Proofs.Memory.Running
import VariantCatalog.Proofs.Sql.Decoding
import VariantCatalog.Sql.Store

namespace VariantCatalog.Sql

open VariantCatalog.Calendar
open Memory (run_bind)

variable {σ : Type} {peer : Peer σ} {stored : View σ} {kind : EntityKind}

/-! ## Exchanges that are served -/

/-- The records that a step takes from a reply, unless it is a refusal. -/
def Reply.records? (step : String) : Reply → Except StoreError (List Record)
  | .refused refusal => .error (Failure.inStep step (.refused refusal))
  | reply => .ok reply.recordList

section Run

variable {step : String} {command : Command} {state after : σ} {record : Record}
variable {rest : List Record}

/-- A peer that is asked answers with its reply. -/
theorem run_modifyGet {reply : Reply} (h : peer command state = (reply, after)) :
    (modifyGetThe σ (peer command) : Exchange σ Reply).run.run state = (.ok reply, after) :=
  congrArg (fun outcome : Reply × σ => (Except.ok outcome.1, outcome.2)) h

theorem run_send {records : List Record} (h : peer command state = (.records records, after)) :
    (send peer step command).run.run state = (.ok (.records records), after) := by
  rw [send, run_bind, run_modifyGet h]
  rfl

/-- All records of a reply are taken, unless it is a refusal. -/
theorem run_fetchAll {reply : Reply} (h : peer command state = (reply, after)) :
    (fetchAll peer step command).run.run state = (reply.records? step, after) := by
  rw [fetchAll, run_bind, send, run_bind, run_modifyGet h]
  cases reply <;> rfl

theorem run_fetchFirst? (h : peer command state = (.records (record :: rest), after)) :
    (fetchFirst? peer step command).run.run state = (.ok (some record), after) := by
  rw [fetchFirst?, run_bind, fetchAll, run_bind, run_send h]
  rfl

theorem run_fetchStored (h : peer command state = (.records (record :: rest), after)) :
    (fetchStored peer kind step command).run.run state = (record.row kind, after) := by
  rw [fetchStored, run_bind, fetchFirst, run_bind, run_fetchFirst? h]
  rfl

theorem run_fetchStamp {column : String} {moment : Moment}
    (h : peer command state = (.records ([(column, .moment moment)] :: rest), after)) :
    (fetchStamp peer step column command).run.run state = (.ok moment, after) := by
  have hstamp : Record.moment [(column, .moment moment)] column = .ok moment := by
    simp [Record.moment, Record.read, Record.readNullable, Datum.asMoment?]
  rw [fetchStamp, run_bind, run_fetchFirst? h]
  show (interpret ((Record.moment [(column, .moment moment)] column).mapError
    (Failure.inStep step))).run.run after = _
  rw [hstamp]
  rfl

end Run

/-! ## Rules -/

/-- The row that some cells stand for. -/
def Cells.row (cells : Cells) (kind : EntityKind) : Except StoreError kind.Row :=
  (cells.project (columnNames kind)).row kind

/-- A row that a database keeps: what stands under its number decodes to it. -/
def Keeps (kind : EntityKind) (stored : View σ) (state : σ) (row : kind.Row) : Prop :=
  ∃ cells, stored state (tableName kind) (Row.id row).number = some cells ∧
    cells.row kind = .ok row

/-- An exchange that creates a row by a rule: the row comes back and is kept, unless
the command is refused. -/
def Creates (kind : EntityKind) (peer : Peer σ) (stored : View σ) (command : Command)
    (exchange : Exchange σ kind.Row) (build : Moment → Id kind → kind.Row) : Prop :=
  ∀ state, ¬ Refuses peer command state → ∃ now id after,
    exchange.run.run state = (.ok (build now id), after) ∧ Keeps kind stored after (build now id)

/-- An exchange that edits a live row under an identifier by a rule, unless the
command is refused. -/
def Edits (kind : EntityKind) (peer : Peer σ) (stored : View σ) (command : Command)
    (exchange : Exchange σ Moment) (id : Id kind) (edit : kind.Row → Moment → kind.Row) : Prop :=
  ∀ (state : σ) (old : kind.Row), Keeps kind stored state old → Row.id old = id → Row.isLive old →
    ¬ Refuses peer command state → ∃ now after,
      exchange.run.run state = (.ok now, after) ∧ Keeps kind stored after (edit old now)

/-- An insertion creates a row by a rule if the contents, written into a row that is
new, decode to what the rule says. -/
theorem ByPlace.creates (h : ByPlace peer stored) {layout : Layout} {step : String}
    {contents : List (String × Datum)} {build : Moment → Id kind → kind.Row}
    (hcolumns : ("id" :: lifecycleColumns ++ contents.map (·.1)).Nodup)
    (hid : ∀ now id, Row.id (build now id) = id)
    (hbuild : ∀ number now (cells : Cells), cells.IsBlank number now →
      cells.Shows (contents.map (filledIn now)) → cells.row kind = .ok (build now ⟨number⟩)) :
    Creates kind peer stored (Command.insertRow layout kind contents)
      (fetchStored peer kind step (Command.insertRow layout kind contents)) build := by
  intro state hserved
  obtain ⟨number, now, cells, after, hblank, hshows, hpeer, hstored⟩ :=
    h.insertRow hcolumns hserved
  have hrow := hbuild number now cells hblank hshows
  refine ⟨now, ⟨number⟩, after, ?_, cells, ?_, hrow⟩
  · rw [run_fetchStored hpeer]
    exact congrArg (·, after) hrow
  · rw [hid]
    exact hstored

/-- An update edits rows by a rule if its contents, written over a row whose other
columns are kept, decode to what the rule says. -/
theorem ByPlace.edits (h : ByPlace peer stored) {step : String} {id : Id kind}
    {contents : List (String × Datum)} {edit : kind.Row → Moment → kind.Row}
    (kept : List String) (hcolumns : (kept ++ (contents.map (·.1) ++ ["updated_on"])).Nodup)
    (hid : ∀ row now, Row.id (edit row now) = Row.id row)
    (hlive : ∀ (cells : Cells) (old : kind.Row), cells.row kind = .ok old → Row.isLive old →
      cells "id" = .integer (Row.id old).number ∧ cells "archived_on" = .null)
    (hedit : ∀ (cells edited : Cells) (old : kind.Row) now, cells.row kind = .ok old →
      edited.Shows (contents ++ [("updated_on", .moment now)]) →
      (∀ column ∈ kept, edited column = cells column) → edited.row kind = .ok (edit old now)) :
    Edits kind peer stored (Command.updateRow id contents)
      (fetchStamp peer step "updated_on" (Command.updateRow id contents)) id edit := by
  rintro state old ⟨cells, hstored, hrow⟩ rfl hisLive hserved
  obtain ⟨hnumber, harchived⟩ := hlive cells old hrow hisLive
  obtain ⟨-, hnodup, hapart⟩ := List.nodup_append.mp hcolumns
  obtain ⟨now, rest, edited, after, hshows, hothers, hpeer, hafter⟩ :=
    h.updateRow hstored hnumber harchived hnodup hserved
  have hkept : ∀ column ∈ kept, edited column = cells column := fun column hmem =>
    hothers column fun hwritten => hapart column hmem column hwritten rfl
  refine ⟨now, after, run_fetchStamp hpeer, edited, ?_,
    hedit cells edited old now hrow hshows hkept⟩
  rw [hid]
  exact hafter

end VariantCatalog.Sql
