import BarreFranche.Synchrone.Run
import BarreFranche.Synchrone.Pulse
import BarreFranche.Synchrone.File
import BarreFranche.Synchrone.PremierBit
import BarreFranche.Synchrone.TourDeRole
import BarreFranche.Synchrone.Historique
import BarreFranche.StdLogic
import BarreFranche.Composants
import BarreFranche.Timer
import BarreFranche.Trajectoire
import BarreFranche.TimerEvenement
import BarreFranche.TimerBorne
import BarreFranche.TimerFrequence
import BarreFranche.TimerArret
import BarreFranche.Minuterie
import BarreFranche.TimerRapport
import BarreFranche.Anemometre
import BarreFranche.AnemometreFenetre
import BarreFranche.AnemometrePublication
import BarreFranche.AnemometreArret
import BarreFranche.AnemometreMesure
import BarreFranche.AnemometreDemande
import BarreFranche.AnemometreProtocole
import BarreFranche.AnemometreConservation
import BarreFranche.AnemometreReset
import BarreFranche.AnemometreSilence
import BarreFranche.AnemometreAvalon
import BarreFranche.AnemometreCopie
import BarreFranche.AvalonSlave
import BarreFranche.AvalonOctets
import BarreFranche.AvalonReset
import BarreFranche.GestionBoutton
import BarreFranche.GestionEtapes
import BarreFranche.GestionRebond
import BarreFranche.GestionParasite
import BarreFranche.GestionCode
import BarreFranche.GestionHorloge
import BarreFranche.GestionAppui
import BarreFranche.GestionBip
import BarreFranche.GestionSalve
import BarreFranche.GestionOubli
import BarreFranche.GestionMiroir
import BarreFranche.GestionPilote
import BarreFranche.GestionDebraye
import BarreFranche.KsKdCmpt
import BarreFranche.ScFifo
import BarreFranche.Arbitre
import BarreFranche.CmdMux
import BarreFranche.Bus
import BarreFranche.BusEchange
import BarreFranche.BusDuree
import BarreFranche.BusAvalon
import BarreFranche.BusFixe
import BarreFranche.BusAnemometre
import BarreFranche.ResetController
import BarreFranche.BusReset
import BarreFranche.Reseau
import BarreFranche.ReseauReponse
import BarreFranche.ReseauBus
