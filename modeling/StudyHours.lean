import StudyHours.Execution
import StudyHours.Hours
import StudyHours.Numeral
import StudyHours.Rounding
import StudyHours.Tally
import StudyHours.Dictionary
import StudyHours.HomeFragment
import StudyHours.RecordViewController
import StudyHours.Account
import StudyHours.Recreation
import StudyHours.SubmittedSession
import StudyHours.AdminCode
import StudyHours.DataSnapshot
import StudyHours.Interruption
import StudyHours.SignUp
import StudyHours.Counter
import StudyHours.Confirmations
import StudyHours.Commits
import StudyHours.History
import StudyHours.SingleDevice
import StudyHours.CheckIn
import StudyHours.Taps
import StudyHours.Turns
import StudyHours.Mirror
import StudyHours.Slots
import StudyHours.Overlap
import StudyHours.Correspondence
import StudyHours.Ledger
import StudyHours.Operations
import StudyHours.Sequential
import StudyHours.SharedLedger
import StudyHours.Sessions
import StudyHours.GalleryFragment
import StudyHours.ViewController
import StudyHours.HistoryScreens
import StudyHours.SistersHoursFragment
import StudyHours.Tree
import StudyHours.Schema
import StudyHours.ElapsedTime
import StudyHours.Credits
import StudyHours.Progress
import StudyHours.LedgerScreens
import StudyHours.LiveTable
import StudyHours.BackStack
import StudyHours.MainActivity
import StudyHours.Navigation
import StudyHours.Accuracy
import StudyHours.TreeCredits
import StudyHours.SignedUp
import StudyHours.Firebase
import StudyHours.LoginViewController
import StudyHours.EmailPasswordActivity
