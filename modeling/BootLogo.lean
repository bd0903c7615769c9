import BootLogo.Hardware.Recorder
import BootLogo.Hardware.RegisterFile
import BootLogo.Proofs.Bitmap.FetchOrder
import BootLogo.Proofs.Compositor.TimingFields
import BootLogo.Proofs.Runs.RoundTrip
import BootLogo.Proofs.Session.CommitModes
import BootLogo.Proofs.Session.History
import BootLogo.Proofs.Session.InSync
import BootLogo.Proofs.Session.Recovery
import BootLogo.Proofs.Session.Rejection
import BootLogo.Proofs.Session.Running
import BootLogo.Proofs.Session.ScanOut
import BootLogo.Proofs.Session.Splashes
import BootLogo.Proofs.Session.StageOrder
import BootLogo.Proofs.Session.StartedOnce
import BootLogo.Runs.Encode
import BootLogo.Session
import BootLogo.Proofs.Bitmap.Undoing
import BootLogo.Proofs.Hardware.RegisterFile
import BootLogo.Proofs.Script.Interruption
import BootLogo.Proofs.Session.CutShort
import BootLogo.Proofs.Compositor.PowerUp
import BootLogo.Proofs.Session.PowerUpDelay
import BootLogo.Proofs.Bitmap.PixelOrder
import BootLogo.Proofs.Bitmap.Words
import BootLogo.Proofs.Bitmap.Acceptance
import BootLogo.Proofs.Runs.Room
import BootLogo.Proofs.Runs.ShortBuffer
import BootLogo.Proofs.Runs.Failing
import BootLogo.Proofs.Runs.Consumed
import BootLogo.Proofs.Placement.Factors
import BootLogo.Proofs.Placement.Words
import BootLogo.Proofs.Placement.Centred
import BootLogo.Proofs.Wait.Reads
import BootLogo.Proofs.Runs.Shortest
import BootLogo.Proofs.Compositor.Divider
import BootLogo.Proofs.Bitmap.Palette
import BootLogo.Proofs.Session.Colours
import BootLogo.Proofs.Runs.Passes
