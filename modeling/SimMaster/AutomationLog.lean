import SimMaster.Parse

/-!
# The automation log

One row for each automation run that ended, in the order of the row ids. `created_at` is the local
time of the end as text with whole seconds; the rows are ordered, and deleted by age, by this text.
The row of the latest `created_at` of a task is the only record of when the task ran last. Rows go
by age, by count and by the user's filters, whatever task they belong to.

Instants are nanoseconds since 1970. The calendar is a parameter.
-/

namespace SimMaster

open Rust List

/-- The calendar in the Beijing offset: the texts and fields of an instant, and the instant of a
text. -/
structure Calendar where
  /-- `%Y-%m-%d %H:%M:%S`. -/
  format : ℤ → Str
  /-- The instant of a local time in that format. -/
  parse : Str → Option ℤ
  /-- `%H:%M`. -/
  formatTime : ℤ → Str
  /-- `%Y-%m-%d %H:%M`. -/
  formatMinute : ℤ → Str
  minute : ℤ → ℕ
  hour : ℤ → ℕ
  day : ℤ → ℕ
  month : ℤ → ℕ
  numberFromMonday : ℤ → ℕ
  numberFromSunday : ℤ → ℕ
  /-- The first instant that can be represented. -/
  earliest : ℤ

/-- The nanoseconds of a number of seconds. -/
def nanoseconds (seconds : ℤ) : ℤ := seconds * 1000000000

/-- An instant without the part of its second that has passed. -/
def wholeSecond (t : ℤ) : ℤ := nanoseconds (t / 1000000000)

/-- What the code relies on at the instants it meets: the text reads back as the whole second, and
the order of the texts is that of the seconds. -/
structure Calendar.Lawful (calendar : Calendar) (meets : ℤ → Prop) : Prop where
  parse_format : ∀ t, meets t → calendar.parse (calendar.format t) = some (wholeSecond t)
  wholeSecond_le : ∀ t u, meets t → meets u → calendar.format t ≤ calendar.format u →
    wholeSecond t ≤ wholeSecond u

/-- A row of `automation_logs`. -/
structure AutomationLogEntry where
  lineId : Option Str
  taskId : Str
  taskName : Str
  taskType : Str
  status : Str
  detail : Str
  createdAt : Str
  deriving DecidableEq

namespace AutomationLog

/-- `non_empty_option`. -/
def nonEmptyOption (value : Option Str) : Option Str :=
  (value.map trim).filter fun value => !value.isEmpty

/-- `insert_automation_log`: `entry` is the row but for what the insertion makes of it. -/
def insertAutomationLog (calendar : Calendar) (now : ℤ) (entry : AutomationLogEntry)
    (logs : List AutomationLogEntry) : List AutomationLogEntry :=
  logs ++ [{ entry with lineId := nonEmptyOption entry.lineId, createdAt := calendar.format now }]

/-- `get_last_log_for_task`: the row of the latest text. -/
def getLastLogForTask (taskId : Str) (logs : List AutomationLogEntry) : Option AutomationLogEntry :=
  (logs.filter fun row => row.taskId = taskId).argmax AutomationLogEntry.createdAt

/-- `notification_log_date_bound`. -/
def notificationLogDateBound (value suffix : Str) : Str :=
  let value := (trim value).map fun c => if c = '/' then '-' else c
  if value.isEmpty then []
  else if utf8Len value ≤ 10 then value ++ [' '] ++ suffix
  else value

/-- `clear_automation_logs`: the rows that do not match the user's filters. An empty filter
matches every row. -/
def clearAutomationLogs (taskType status lineId startDate endDate : Str)
    (logs : List AutomationLogEntry) : List AutomationLogEntry :=
  let taskType := trim taskType
  let status := trim status
  let lineId := trim lineId
  let startAt := notificationLogDateBound startDate "00:00:00".toList
  let endAt := notificationLogDateBound endDate "23:59:59".toList
  logs.filter fun row => !((taskType.isEmpty || row.taskType == taskType) &&
    (status.isEmpty || row.status == status) && (lineId.isEmpty || row.lineId == some lineId) &&
    (startAt.isEmpty || decide (startAt ≤ row.createdAt)) &&
    (endAt.isEmpty || decide (row.createdAt ≤ endAt)))

/-- The text before which rows are too old. -/
def cutoff (calendar : Calendar) (now : ℤ) (days : ℕ) : Str :=
  let limit := now - nanoseconds (days * 86400)
  calendar.format (if limit < calendar.earliest then now else limit)

/-- The rows that are left by the deletion of all but the latest `maxEntries` ids, if it
succeeds. -/
def deleteExcess (maxEntries : Option ℕ) (executed : Bool) (logs : List AutomationLogEntry) :
    List AutomationLogEntry :=
  match maxEntries.filter (0 < ·) with
  | none => logs
  | some count => if executed then logs.drop (logs.length - count) else logs

/-- `cleanup_automation_logs`. `executed` says whether its two statements succeed; the second is not
tried after the first failed. -/
def cleanupAutomationLogs (calendar : Calendar) (now : ℤ) (retentionDays maxEntries : Option ℕ)
    (executed : Bool × Bool) (logs : List AutomationLogEntry) : List AutomationLogEntry :=
  match retentionDays.filter (0 < ·) with
  | none => deleteExcess maxEntries executed.2 logs
  | some days =>
    if executed.1 then
      deleteExcess maxEntries executed.2
        (logs.filter fun row => !decide (row.createdAt < cutoff calendar now days))
    else logs

/-! ## The last row -/

variable {taskId : Str} {logs : List AutomationLogEntry}

theorem getLastLogForTask_eq_some
    {last : AutomationLogEntry} (h : getLastLogForTask taskId logs = some last) :
    last ∈ logs ∧ last.taskId = taskId := by
  have hmem := argmax_mem h
  rw [mem_filter, decide_eq_true_eq] at hmem
  exact hmem

variable {row : AutomationLogEntry}

/-- No row of the task is later than the last one. -/
theorem le_getLastLogForTask (hrow : row ∈ logs) (htask : row.taskId = taskId) :
    ∃ last, getLastLogForTask taskId logs = some last ∧ row.createdAt ≤ last.createdAt := by
  have hmem : row ∈ logs.filter fun row => row.taskId = taskId :=
    mem_filter.mpr ⟨hrow, decide_eq_true htask⟩
  cases hlast : getLastLogForTask taskId logs with
  | none =>
    rw [getLastLogForTask, argmax_eq_none] at hlast
    rw [hlast] at hmem
    exact absurd hmem not_mem_nil
  | some last =>
    rw [getLastLogForTask] at hlast
    refine ⟨last, rfl, le_of_mem_argmax hmem ?_⟩
    -- the linear order compares the texts by another instance
    rw [Option.mem_def]
    convert hlast

theorem mem_of_mem_clear {taskType status lineId startDate endDate : Str}
    (h : row ∈ clearAutomationLogs taskType status lineId startDate endDate logs) : row ∈ logs :=
  mem_of_mem_filter h

variable {maxEntries : Option ℕ}

theorem mem_of_mem_deleteExcess {executed : Bool}
    (h : row ∈ deleteExcess maxEntries executed logs) : row ∈ logs := by
  rw [deleteExcess] at h
  split at h
  · exact h
  · split_ifs at h
    · exact mem_of_mem_drop h
    · exact h

theorem mem_of_mem_cleanup {calendar : Calendar} {now : ℤ} {retentionDays : Option ℕ}
    {executed : Bool × Bool}
    (h : row ∈ cleanupAutomationLogs calendar now retentionDays maxEntries executed logs) :
    row ∈ logs := by
  rw [cleanupAutomationLogs] at h
  split at h
  · exact mem_of_mem_deleteExcess h
  · split_ifs at h
    · exact mem_of_mem_filter (mem_of_mem_deleteExcess h)
    · exact h

end AutomationLog

end SimMaster
