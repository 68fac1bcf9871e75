import AggroApp.Async.Runs
import AggroApp.Model.Store
import AggroApp.Model.Service
import AggroApp.Model.Backend
import AggroApp.Async.Pool
import AggroApp.Model.Net
import AggroApp.Store.Ledger
import AggroApp.Store.Refinement
import AggroApp.Store.GoogleSignIn
import AggroApp.Service.Reports
import AggroApp.Store.SignUp
import AggroApp.Store.Pictures
import AggroApp.Store.Tree
import AggroApp.Store.Agreement
import AggroApp.Model.Forms
import AggroApp.Model.EditProfile
import AggroApp.Model.App
import AggroApp.Screens.Forms
import AggroApp.Screens.OwnProfile
import AggroApp.Screens.Attempts
import AggroApp.Screens.Loader
import AggroApp.Screens.Saving
import AggroApp.Screens.Copies
import AggroApp.Screens.Tracked
import AggroApp.Screens.Quiet
import AggroApp.Screens.Presses
import AggroApp.Screens.Onboarding
import AggroApp.Screens.Versions
import AggroApp.Screens.Texts
import AggroApp.Screens.Notes
import AggroApp.Screens.Holders
import AggroApp.Screens.Newest
import AggroApp.Async.Potential
import AggroApp.Store.Writers
import AggroApp.Model.ProgressHUD
import AggroApp.Model.Display
import AggroApp.Model.PaperOnboarding
import AggroApp.Model.WebCache
import AggroApp.Screens.Workload
import AggroApp.Screens.Sources
import AggroApp.Screens.Client
import AggroApp.Screens.Accounts
import AggroApp.Screens.Displayed
import AggroApp.Screens.Pages
import AggroApp.Screens.Loads
import AggroApp.Screens.ImageViews
import AggroApp.Screens.Downloads
import AggroApp.Screens.Arrivals
import AggroApp.Screens.ImageWork
import AggroApp.Model.Phone
import AggroApp.Screens.HomePicture
import AggroApp.Model.FrontEnd
import AggroApp.Screens.FrontEnd
import AggroApp.Screens.LateLinks
