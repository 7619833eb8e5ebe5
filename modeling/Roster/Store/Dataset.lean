import Roster.Store.Memory
import Roster.Text.Lowercase
import Roster.Timestamp
import Roster.Uuid

/-!
# Datasets

Records of an office and the rows that they are kept as. A dataset gives every
job, candidate and application a time of creation, one minute after the one
before, so that sorting by it is decided.
-/

namespace Roster

/-- A person who works at the office. -/
structure User where
  id : Uuid
  name : String
  role : String

/-- An opening. -/
structure Job where
  id : Uuid
  title : String
  department : String := "Engineering"
  location : String := "Remote"
  status : String := "OPEN"
  /-- The least and the greatest salary. -/
  salary : Option (Int × Int) := none
  owner : Option Uuid := none

/-- A person who looks for a job. -/
structure Candidate where
  id : Uuid
  firstName : String
  lastName : String
  phone : Option String := none

/-- A candidate's application for a job. -/
structure Application where
  id : Uuid
  job : Uuid
  candidate : Uuid
  status : String := "NEW"
  /-- The score and the notes of a review. -/
  review : Option (Double × String) := none

/-- A value, or null. -/
def Json.ofOption {α : Type} (toJson : α → Json) (value : Option α) : Json :=
  (value.map toJson).getD .null

/-- An identifier as a value. -/
def Uuid.toJson (u : Uuid) : Json := .str u.text

/-- A mail address under the domain for examples. -/
def mailAddress (name : String) : String := name ++ "@example.com"

/-- The row of a user. The mail address has points where the name has blanks. -/
def User.row (u : User) : Json :=
  let mailbox := (Text.lowercase u.name).map fun c => if c = ' ' then '.' else c
  .obj [("id", u.id.toJson), ("name", .str u.name), ("email", .str (mailAddress mailbox)),
    ("role", .str u.role)]

/-- The row of a job. -/
def Job.row (j : Job) (createdAt : String) : Json :=
  .obj [("id", j.id.toJson), ("title", .str j.title), ("description", .str (j.title ++ " role")),
    ("department", .str j.department), ("location", .str j.location), ("status", .str j.status),
    ("salaryMin", .ofOption (fun s => .ofInt s.1) j.salary),
    ("salaryMax", .ofOption (fun s => .ofInt s.2) j.salary),
    ("ownerId", .ofOption Uuid.toJson j.owner), ("createdAt", .str createdAt)]

/-- The row of a candidate. -/
def Candidate.row (c : Candidate) (createdAt : String) : Json :=
  .obj [("id", c.id.toJson), ("firstName", .str c.firstName), ("lastName", .str c.lastName),
    ("email", .str (mailAddress (Text.lowercase c.firstName ++ "." ++ Text.lowercase c.lastName))),
    ("phone", .ofOption .str c.phone), ("createdAt", .str createdAt)]

/-- The row of an application. -/
def Application.row (a : Application) (createdAt : String) : Json :=
  .obj [("id", a.id.toJson), ("jobId", a.job.toJson), ("candidateId", a.candidate.toJson),
    ("status", .str a.status),
    ("score", .ofOption (fun r => .num (.float r.1)) a.review),
    ("reviewNotes", .ofOption (fun r => .str r.2) a.review),
    ("createdAt", .str createdAt)]

/-- Rows, and how many of them got a time of creation. -/
structure Dataset where
  tables : Tables := {}
  timed : Nat := 0

namespace Dataset

/-- The dataset with a row of an entity that gets the next time of creation. -/
def addTimed (d : Dataset) (entity : String) (row : String → Json) : Dataset :=
  let timed := d.timed + 1
  ⟨d.tables.extend entity [row (Timestamp.ofMinutes timed)], timed⟩

/-- The dataset with one more user. -/
def user (d : Dataset) (u : User) : Dataset := { d with tables := d.tables.extend "users" [u.row] }

/-- The dataset with one more job. -/
def job (d : Dataset) (j : Job) : Dataset := d.addTimed "jobs" j.row

/-- The dataset with one more candidate. -/
def candidate (d : Dataset) (c : Candidate) : Dataset := d.addTimed "candidates" c.row

/-- The dataset with one more application. -/
def application (d : Dataset) (a : Application) : Dataset := d.addTimed "applications" a.row

end Dataset

end Roster
