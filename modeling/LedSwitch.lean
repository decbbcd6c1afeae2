import LedSwitch.FileSystem.Changes
import LedSwitch.Main
import LedSwitch.Proofs.CommandLine.Exiting
import LedSwitch.Proofs.CommandLine.Filtering
import LedSwitch.Proofs.CommandLine.Placing
import LedSwitch.Proofs.Control.Echoing
import LedSwitch.Proofs.Control.Owning
import LedSwitch.Proofs.Control.Restoring
import LedSwitch.Proofs.Preferences.Keeping
import LedSwitch.Proofs.Preferences.Overwriting
import LedSwitch.Proofs.Preferences.Preparing
import LedSwitch.Proofs.Preferences.Reordering
import LedSwitch.Proofs.Preferences.Rereading
import LedSwitch.Proofs.Session.Damaged
import LedSwitch.Proofs.Session.Reported
import LedSwitch.Proofs.Session.Sharing
import LedSwitch.Proofs.Session.Signals
